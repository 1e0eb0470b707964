import Nanotins.Children.Tlv
import Nanotins.Library.RecordStream

/-!
Contract: the record grammars that `tlv_cursor` decodes, one for each padding
mode.

Owns: records as they are written, which of them a mode allows, and that the
cursor reads a region exactly by the grammar of its mode
(`tlvCursor_decodes`).

Does not own: which regions hold records.
-/

namespace Nanotins.Children

open Nanotins.Library

/-! ### Records as they are written -/

/-- A record and its value; `none` for a one-byte record. -/
structure TlvItem where
  type : UInt8
  value : Option Bytes
deriving DecidableEq, Repr

namespace TlvItem

/-- The mark that ends an IPv4 option list. -/
def eool : TlvItem := ⟨0, none⟩

/-- The length octet of an IPv4 option counts the type and length octets too. -/
def encode (pad : TlvPad) (item : TlvItem) : Bytes :=
  match item.value with
  | none => [item.type]
  | some value =>
      item.type :: UInt8.ofNat (value.length + if pad = .ipv4Options then 2 else 0) :: value

/-- The records that may stand anywhere in a region of this mode. -/
def Legal (pad : TlvPad) (item : TlvItem) : Prop :=
  match pad, item.value with
  | .ipv6Options, none => item.type = 0
  | .ipv6Options, some value => 1 ≤ item.type ∧ value.length ≤ 255
  | .ipv4Options, none => item.type = 1
  | .ipv4Options, some value => 2 ≤ item.type ∧ value.length ≤ 253
  | .raw, none => False
  | .raw, some value => value.length ≤ 255

end TlvItem

/-- The record that the cursor reports, with the bytes its value points to. -/
def TlvRecord.item (pkt : Bytes) (record : TlvRecord) : TlvItem :=
  ⟨record.type, record.value.map fun value => readBytes pkt value record.length.toNat⟩

/-- The bytes that a cursor has before it. -/
def TlvCursor.region (pkt : Bytes) (cursor : TlvCursor) : Bytes :=
  readBytes pkt cursor.p (cursor.stop - cursor.p)

/-- The grammar of a mode. -/
def tlvGrammar (pad : TlvPad) : RecordGrammar TlvItem UInt8 where
  Record item text := item.Legal pad ∧ text = item.encode pad
  Closing item text := pad = .ipv4Options ∧ item = .eool ∧ text = [0]
  record_ne_nil := by
    intro item text record
    obtain ⟨-, rfl⟩ := record
    obtain ⟨type, value | value⟩ := item <;> exact List.cons_ne_nil _ _
  closing_ne_nil := by
    intro item text closing
    obtain ⟨-, -, rfl⟩ := closing
    exact List.cons_ne_nil _ _

/-! ### Type octets -/

section TypeOctet

variable {type : UInt8}

theorem one_le_of_ne (notPad : type ≠ 0) : 1 ≤ type := by
  have first : type.toNat ≠ 0 := fun zero => notPad (UInt8.toNat_inj.mp zero)
  apply UInt8.le_iff_toNat_le.mpr
  change 1 ≤ type.toNat
  omega

theorem ne_of_one_le (wide : 1 ≤ type) : type ≠ 0 := by
  intro zero
  rw [zero] at wide
  exact absurd wide (by decide)

theorem two_le_of_ne (notEool : type ≠ 0) (notNop : type ≠ 1) : 2 ≤ type := by
  have first : type.toNat ≠ 0 := fun zero => notEool (UInt8.toNat_inj.mp zero)
  have second : type.toNat ≠ 1 := fun one => notNop (UInt8.toNat_inj.mp one)
  apply UInt8.le_iff_toNat_le.mpr
  change 2 ≤ type.toNat
  omega

theorem ne_of_two_le (wide : 2 ≤ type) : type ≠ 0 ∧ type ≠ 1 := by
  constructor
  · intro zero
    rw [zero] at wide
    exact absurd wide (by decide)
  · intro one
    rw [one] at wide
    exact absurd wide (by decide)

theorem ofNat_eq_of_toNat {octet : UInt8} {n : Nat} (value : octet.toNat = n) :
    UInt8.ofNat n = octet := by
  rw [← value, UInt8.ofNat_toNat]

/-- The length octet of an IPv4 option counts the two octets in front of the value. -/
theorem toNat_eq_sub_two_add {octet : UInt8} (wide : 2 ≤ octet) :
    octet.toNat = (octet - 2).toNat + 2 := by
  have two := UInt8.le_iff_toNat_le.mp wide
  change 2 ≤ octet.toNat at two
  rw [UInt8.toNat_sub_of_le _ _ wide]
  change _ = octet.toNat - 2 + 2
  omega

/-- A record with a value is no pad of IPv6, and its length fits the octet. -/
theorem TlvItem.Legal.octet_le {pad : TlvPad} {value : Bytes}
    (legal : TlvItem.Legal pad ⟨type, some value⟩) :
    ¬ (pad = .ipv6Options ∧ type = 0) ∧
      value.length + (if pad = .ipv4Options then 2 else 0) ≤ 255 := by
  cases pad with
  | ipv6Options => exact ⟨fun pad1 => ne_of_one_le legal.1 pad1.2, legal.2⟩
  | ipv4Options => exact ⟨by simp, Nat.add_le_add_right legal.2 2⟩
  | raw => exact ⟨by simp, legal⟩

end TypeOctet

/-! ### The cursor reads by the grammar -/

namespace TlvCursor

variable {pkt : Bytes} {cursor behind : TlvCursor} {record : TlvRecord}

theorem region_cons (inside : cursor.p < cursor.stop) :
    cursor.region pkt =
      byteAt pkt cursor.p :: region pkt { cursor with p := cursor.p + 1 } := by
  obtain ⟨rest, stop⟩ : ∃ rest, cursor.stop - cursor.p = rest + 1 :=
    ⟨cursor.stop - cursor.p - 1, by omega⟩
  rw [region, stop, readBytes_succ, region]
  dsimp only
  rw [(by omega : cursor.stop - (cursor.p + 1) = rest)]

/-- A record of type, length octet and value. -/
theorem region_value {len : Nat} (inside : cursor.p + 2 + len ≤ cursor.stop) :
    cursor.region pkt =
      byteAt pkt cursor.p :: byteAt pkt (cursor.p + 1) ::
        (readBytes pkt (cursor.p + 2) len ++
          region pkt { cursor with p := cursor.p + 2 + len }) := by
  rw [region_cons (by omega), region_cons (by dsimp only; omega), region, region]
  dsimp only
  rw [← readBytes_add]
  congr 3
  omega

/-- A record whose length octet counts `len` bytes of value stands as it is written. -/
theorem region_encode {len : Nat} (fits : cursor.p + 2 + len ≤ cursor.stop)
    (counted : (byteAt pkt (cursor.p + 1)).toNat =
      len + if cursor.pad = .ipv4Options then 2 else 0) :
    cursor.region pkt =
      TlvItem.encode cursor.pad ⟨byteAt pkt cursor.p, some (readBytes pkt (cursor.p + 2) len)⟩ ++
        region pkt { cursor with p := cursor.p + 2 + len } := by
  rw [region_value fits, TlvItem.encode]
  dsimp only
  rw [length_readBytes, ofNat_eq_of_toNat counted]
  rfl

/-- A record that is taken is one of the grammar. -/
theorem sound_of_next (taken : cursor.next pkt = some (record, behind)) :
    (∃ text, (tlvGrammar cursor.pad).Record (record.item pkt) text ∧
      cursor.region pkt = text ++ behind.region pkt) ∨
    ∃ text padding, (tlvGrammar cursor.pad).Closing (record.item pkt) text ∧
      cursor.region pkt = text ++ padding ∧ behind.region pkt = [] := by
  obtain ⟨p, stop, pad⟩ := cursor
  rw [next_eq] at taken
  dsimp only at taken
  split_ifs at taken with exhausted pad1 ipv4 eool nop short beyond short' beyond'
  · cases taken
    obtain ⟨rfl, zero⟩ := pad1
    refine .inl ⟨[0], ⟨rfl, rfl⟩, ?_⟩
    rw [region_cons (Nat.not_le.mp exhausted), zero]
    rfl
  · cases taken
    refine .inr ⟨[0], region pkt ⟨p + 1, stop, pad⟩, ⟨ipv4, rfl, rfl⟩, ?_, ?_⟩
    · rw [region_cons (Nat.not_le.mp exhausted), eool]
      rfl
    · rw [region, Nat.sub_self]
      rfl
  · cases taken
    subst ipv4
    refine .inl ⟨[1], ⟨rfl, rfl⟩, ?_⟩
    rw [region_cons (Nat.not_le.mp exhausted), nop]
    rfl
  · cases taken
    subst ipv4
    obtain ⟨large, fits⟩ := not_or.mp beyond
    have counted := toNat_eq_sub_two_add (UInt8.not_lt.mp large)
    have octet := UInt8.toNat_lt (byteAt pkt (p + 1))
    have fitted : p + 2 + (byteAt pkt (p + 1) - 2).toNat ≤ stop := by omega
    refine .inl ⟨_, ⟨⟨two_le_of_ne eool nop, ?_⟩, rfl⟩, ?_⟩
    · dsimp only
      rw [length_readBytes]
      omega
    · rw [region_encode fitted counted]
      dsimp only
      rw [counted, Nat.add_right_comm, Nat.add_assoc]
      rfl
  · cases taken
    have octet := UInt8.toNat_lt (byteAt pkt (p + 1))
    have counted : (byteAt pkt (p + 1)).toNat =
        (byteAt pkt (p + 1)).toNat + if pad = .ipv4Options then 2 else 0 := by
      rw [if_neg ipv4]
      rfl
    have short : (readBytes pkt (p + 2) (byteAt pkt (p + 1)).toNat).length ≤ 255 := by
      rw [length_readBytes]
      omega
    refine .inl ⟨_, ⟨?_, rfl⟩, region_encode (Nat.not_lt.mp beyond') counted⟩
    cases pad with
    | ipv6Options => exact ⟨one_le_of_ne fun zero => pad1 ⟨rfl, zero⟩, short⟩
    | ipv4Options => exact absurd rfl ipv4
    | raw => exact short

theorem byte_of_region {byte : UInt8} {more : Bytes} (stands : cursor.region pkt = byte :: more) :
    cursor.p < cursor.stop ∧ byteAt pkt cursor.p = byte ∧
      region pkt { cursor with p := cursor.p + 1 } = more := by
  obtain ⟨inside, here, rest⟩ := readBytes_eq_cons stands
  rw [Nat.sub_sub] at rest
  exact ⟨by omega, here, rest⟩

/-- The parts of a record of type, length octet and value. -/
theorem parts_of_region {type octet : UInt8} {value more : Bytes}
    (stands : cursor.region pkt = type :: octet :: (value ++ more)) :
    cursor.p + 2 + value.length ≤ cursor.stop ∧ byteAt pkt cursor.p = type ∧
      byteAt pkt (cursor.p + 1) = octet ∧ readBytes pkt (cursor.p + 2) value.length = value ∧
      region pkt { cursor with p := cursor.p + 2 + value.length } = more := by
  obtain ⟨typeInside, typeRead, behindType⟩ := readBytes_eq_cons stands
  obtain ⟨octetInside, octetRead, behindOctet⟩ := readBytes_eq_cons behindType
  obtain ⟨valueInside, valueRead, rest⟩ := readBytes_eq_append behindOctet
  refine ⟨by omega, typeRead, octetRead, valueRead, ?_⟩
  rw [region, ← rest]
  dsimp only
  congr 1
  omega

/-- A one-byte record of the grammar is taken. -/
theorem next_of_byte {type : UInt8} {more : Bytes}
    (legal : TlvItem.Legal cursor.pad ⟨type, none⟩) (stands : cursor.region pkt = type :: more) :
    ∃ record behind, cursor.next pkt = some (record, behind) ∧
      record.item pkt = ⟨type, none⟩ ∧ behind.region pkt = more := by
  obtain ⟨p, stop, pad⟩ := cursor
  obtain ⟨inside, here, rest⟩ := byte_of_region stands
  dsimp only at inside here rest
  cases pad with
  | ipv6Options =>
      obtain rfl : type = 0 := legal
      refine ⟨⟨0, 0, none⟩, ⟨p + 1, stop, .ipv6Options⟩, ?_, rfl, rest⟩
      rw [next_eq]
      dsimp only
      rw [if_neg (by omega), if_pos ⟨rfl, here⟩]
  | ipv4Options =>
      obtain rfl : type = 1 := legal
      refine ⟨⟨1, 0, none⟩, ⟨p + 1, stop, .ipv4Options⟩, ?_, rfl, rest⟩
      rw [next_eq]
      dsimp only
      rw [here, if_neg (by omega), if_neg (by simp), if_pos rfl, if_neg (by decide), if_pos rfl]
  | raw => exact legal.elim

/-- A record with a value is taken. -/
theorem next_of_value {type : UInt8} {value more : Bytes}
    (legal : TlvItem.Legal cursor.pad ⟨type, some value⟩)
    (stands : cursor.region pkt = TlvItem.encode cursor.pad ⟨type, some value⟩ ++ more) :
    ∃ record behind, cursor.next pkt = some (record, behind) ∧
      record.item pkt = ⟨type, some value⟩ ∧ behind.region pkt = more := by
  obtain ⟨p, stop, pad⟩ := cursor
  obtain ⟨inside, typeRead, octetRead, valueRead, rest⟩ := parts_of_region stands
  obtain ⟨notPad1, octetLe⟩ := legal.octet_le
  dsimp only at inside typeRead octetRead valueRead rest notPad1 octetLe
  have octet : (byteAt pkt (p + 1)).toNat =
      value.length + if pad = .ipv4Options then 2 else 0 := by
    rw [octetRead]
    exact Nat.mod_eq_of_lt (Nat.lt_succ_of_le octetLe)
  by_cases ipv4 : pad = .ipv4Options
  · subst ipv4
    obtain ⟨notEool, notNop⟩ := ne_of_two_le legal.1
    rw [if_pos rfl] at octet
    have wide : 2 ≤ byteAt pkt (p + 1) := by
      rw [UInt8.le_iff_toNat_le, octet]
      exact Nat.le_add_left _ _
    have length : (byteAt pkt (p + 1) - 2).toNat = value.length := by
      have counted := toNat_eq_sub_two_add wide
      omega
    refine ⟨⟨type, byteAt pkt (p + 1) - 2, some (p + 2)⟩,
      ⟨p + 2 + value.length, stop, .ipv4Options⟩, ?_, ?_, rest⟩
    · rw [next_eq]
      dsimp only
      rw [typeRead, octet, if_neg (by omega), if_neg notPad1, if_pos rfl, if_neg notEool,
        if_neg notNop, if_neg (by omega), if_neg (not_or.mpr ⟨UInt8.not_lt.mpr wide, by omega⟩),
        Nat.add_comm value.length, ← Nat.add_assoc]
    · rw [TlvRecord.item, Option.map_some, length, valueRead]
  · rw [if_neg ipv4] at octet
    change _ = value.length at octet
    refine ⟨⟨type, byteAt pkt (p + 1), some (p + 2)⟩,
      ⟨p + 2 + value.length, stop, pad⟩, ?_, ?_, rest⟩
    · rw [next_eq]
      dsimp only
      rw [typeRead, octet, if_neg (by omega), if_neg notPad1, if_neg ipv4, if_neg (by omega),
        if_neg (by omega)]
    · rw [TlvRecord.item, Option.map_some, octet, valueRead]

/-- The mark that ends an IPv4 option list exhausts the region. -/
theorem next_of_eool {padding : Bytes} (ipv4 : cursor.pad = .ipv4Options)
    (stands : cursor.region pkt = 0 :: padding) :
    ∃ record behind, cursor.next pkt = some (record, behind) ∧ record.item pkt = .eool ∧
      behind.region pkt = [] := by
  obtain ⟨inside, here, -⟩ := byte_of_region stands
  refine ⟨⟨0, 0, none⟩, { cursor with p := cursor.stop }, ?_, rfl, ?_⟩
  · rw [next_eq, here, if_neg (by omega), if_neg (by simp [ipv4]), if_pos ipv4, if_pos rfl]
  · rw [region, Nat.sub_self]
    rfl

theorem readBy (pkt : Bytes) (pad : TlvPad) :
    (tlvGrammar pad).ReadBy (fun cursor => cursor.pad = pad) (next pkt) (TlvRecord.item pkt)
      (region pkt) where
  preserved holds taken := by
    rw [(next_some taken).2.2.2.1, holds]
  sound holds taken := by
    rw [← holds]
    exact sound_of_next taken
  record := by
    intro cursor item text more holds record split
    obtain ⟨legal, rfl⟩ := record
    subst holds
    obtain ⟨type, value⟩ := item
    cases value with
    | none => exact next_of_byte legal split
    | some value => exact next_of_value legal split
  closing := by
    intro cursor item text padding holds closing split
    obtain ⟨ipv4, rfl, rfl⟩ := closing
    exact next_of_eool (holds.trans ipv4) split

/-- The bounded loop takes the records of the unbounded one. -/
theorem records_of_walk {records : List TlvRecord} {final : TlvCursor}
    (walk : Walk (next pkt) cursor records final) : cursor.records pkt = records := by
  apply walk.drain_eq
  have few := (readBy pkt cursor.pad).length_le walk rfl
  rwa [region, length_readBytes] at few

/-- The value of a record lies in the region; a record without one has length 0. -/
def ValueInside (cursor : TlvCursor) (record : TlvRecord) : Prop :=
  match record.value with
  | none => record.length = 0
  | some value => cursor.p ≤ value ∧ value + record.length.toNat ≤ cursor.stop

theorem length_of_next_none (taken : cursor.next pkt = some (record, behind))
    (noValue : record.value = none) : record.length = 0 := by
  rw [next_eq] at taken
  split_ifs at taken <;> cases taken
  · rfl
  · rfl
  · rfl
  · contradiction
  · contradiction

theorem valueInside_of_walk {records : List TlvRecord} {final : TlvCursor}
    (walk : Walk (next pkt) cursor records final) :
    ∀ record ∈ records, cursor.ValueInside record := by
  refine (walk.forall_mem (fun state => cursor.p ≤ state.p ∧ state.stop = cursor.stop) _ ?_
    ⟨Nat.le_refl _, rfl⟩).1
  intro state behind record inside taken
  obtain ⟨forward, fits, stop, -, extent⟩ := next_some taken
  refine ⟨?_, by omega, by omega⟩
  unfold ValueInside
  split
  · next noValue => exact length_of_next_none taken noValue
  · next value here =>
    have := extent value here
    omega

/-- No record that the mode allows stands at the front: nothing is left, or what
stands there is malformed or does not fit. -/
def NoRecord (pad : TlvPad) (left : Bytes) : Prop :=
  (∀ item more, TlvItem.Legal pad item → left ≠ item.encode pad ++ more) ∧
    (pad = .ipv4Options → ∀ more, left ≠ TlvItem.eool.encode pad ++ more)

theorem noRecord_of_stuck {pad : TlvPad} {left : Bytes} (stuck : (tlvGrammar pad).Stuck left) :
    NoRecord pad left := by
  constructor
  · intro item more legal split
    exact (stuck item _ more split).1 ⟨legal, rfl⟩
  · intro ipv4 more split
    exact (stuck .eool _ more split).2 ⟨ipv4, rfl, rfl⟩

end TlvCursor

theorem encodes_tlvGrammar_iff (pad : TlvPad) (items : List TlvItem) (text : Bytes) :
    (tlvGrammar pad).Encodes items text ↔
      (∀ item ∈ items, item.Legal pad) ∧ text = items.flatMap (TlvItem.encode pad) :=
  RecordGrammar.encodes_iff (fun _ _ => Iff.rfl) items text

/-- The cursor decodes exactly the texts of its mode: any list of records, in an
IPv4 option list also one that ends in EOOL; and any region is taken apart into
the text of the records reported and what is left. -/
theorem tlvCursor_decodes (pkt : Bytes) (cursor : TlvCursor) :
    (∀ items : List TlvItem, (∀ item ∈ items, item.Legal cursor.pad) →
      (cursor.region pkt = items.flatMap (TlvItem.encode cursor.pad) →
        ∃ records final, Walk (TlvCursor.next pkt) cursor records final ∧
          records.map (TlvRecord.item pkt) = items) ∧
      ∀ padding, cursor.pad = .ipv4Options →
        cursor.region pkt =
          items.flatMap (TlvItem.encode cursor.pad) ++ (TlvItem.eool.encode cursor.pad ++ padding) →
        ∃ records final, Walk (TlvCursor.next pkt) cursor records final ∧
          records.map (TlvRecord.item pkt) = items ++ [.eool]) ∧
    ∃ records final items, Walk (TlvCursor.next pkt) cursor records final ∧
      cursor.records pkt = records ∧ (∀ record ∈ records, cursor.ValueInside record) ∧
      (∀ item ∈ items, TlvItem.Legal cursor.pad item) ∧
      ((records.map (TlvRecord.item pkt) = items ∧
          cursor.region pkt = items.flatMap (TlvItem.encode cursor.pad) ++ final.region pkt ∧
          TlvCursor.NoRecord cursor.pad (final.region pkt)) ∨
        ∃ padding, cursor.pad = .ipv4Options ∧
          records.map (TlvRecord.item pkt) = items ++ [.eool] ∧
          cursor.region pkt =
            items.flatMap (TlvItem.encode cursor.pad) ++
              (TlvItem.eool.encode cursor.pad ++ padding) ∧
          final.region pkt = []) := by
  have readBy := TlvCursor.readBy pkt cursor.pad
  constructor
  · intro items legal
    have encodes := (encodes_tlvGrammar_iff cursor.pad items _).mpr ⟨legal, rfl⟩
    constructor
    · intro region
      have walked := readBy.walk_of_encodes encodes readBy.walk_of_nil rfl
        (by rw [region, List.append_nil])
      rwa [List.append_nil] at walked
    · intro padding ipv4 region
      exact readBy.walk_of_encodes encodes
        (readBy.walk_of_closing ⟨ipv4, rfl, rfl⟩) rfl region
  · obtain ⟨records, final, walk⟩ := readBy.exists_walk rfl
    obtain ⟨items, consumed, encodes, ending⟩ := readBy.consumed_of_walk walk rfl
    obtain ⟨legal, rfl⟩ := (encodes_tlvGrammar_iff cursor.pad items consumed).mp encodes
    refine ⟨records, final, items, walk, TlvCursor.records_of_walk walk,
      TlvCursor.valueInside_of_walk walk, legal, ?_⟩
    rcases ending with ⟨same, region, stuck⟩ | ⟨item, text, padding, closes, same, region, done⟩
    · exact .inl ⟨same, region, TlvCursor.noRecord_of_stuck stuck⟩
    · obtain ⟨ipv4, rfl, rfl⟩ := closes
      exact .inr ⟨padding, ipv4, same, region, done⟩

end Nanotins.Children
