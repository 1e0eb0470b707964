import Mathlib.Data.List.Nodup
import Nanotins.Soatins.Bits

/-!
Contract: the structs of `protocols.hpp` and `gptp.hpp`, overlaid on packet bytes.

Owns: the layout of a packed struct, the object that a copy of its bytes makes, the
wire spec that lists its columns (`columns_overlay`), and that the header specs read
what the structs' columns hold (`overlay_agrees`).

Does not own: which headers a packet has.

The members of these structs are 1-aligned, so there is no padding.
-/

namespace Nanotins.Soatins

open Nanotins.Library Nanotins.Wire

/-! ### Objects in memory -/

/-- An `n`-byte word in memory. -/
def wordAt (order : WireEndian) (buffer : Bytes) (off n : Nat) : Nat :=
  Id.run (readScalarM (byteAt buffer) order off n)

def ElemType.valueAt (native : WireEndian) (buffer : Bytes) (off : Nat) :
    (elem : ElemType) → elem.Value
  | bool => byteAt buffer off != 0
  | int type => BitVec.ofNat type.bits (wordAt native buffer off type.size.bytes)
  | float => BitVec.ofNat 32 (wordAt native buffer off 4)
  | double => BitVec.ofNat 64 (wordAt native buffer off 8)
  | bytes _ _ => Vector.ofFn fun i => byteAt buffer (off + i)

namespace IntType

def rawAt (type : IntType) (buffer : Bytes) (off : Nat) : type.Raw :=
  Vector.ofFn fun i => byteAt buffer (off + i)

def wordAt (type : IntType) (native : WireEndian) (buffer : Bytes) (off : Nat) :
    (order : Option WireEndian) → type.Word order
  | none => (ElemType.int type).valueAt native buffer off
  | some _ => type.rawAt buffer off

end IntType

namespace FieldType

def size : FieldType → Nat
  | plain elem => elem.size
  | be type => type.size.bytes
  | le type => type.size.bytes
  | bits type => type.type.size.bytes

/-- The object whose bytes are found at `off`. -/
def objectAt (native : WireEndian) (buffer : Bytes) (off : Nat) :
    (type : FieldType) → type.Object
  | plain elem => elem.valueAt native buffer off
  | be type => type.rawAt buffer off
  | le type => type.rawAt buffer off
  | bits type => type.type.wordAt native buffer off type.order

/-- The fields of a wire spec that a member at `offset` stands for. -/
def wireFields (name : String) (offset : Nat) : FieldType → List Field
  | plain (.int type) => [⟨name, offset, .scalar type.size.bytes type.signed .big⟩]
  | plain (.bytes width _) => [bytesField name offset width]
  | plain _ => []
  | be type => [⟨name, offset, .scalar type.size.bytes type.signed .big⟩]
  | le type => [⟨name, offset, .scalar type.size.bytes type.signed .little⟩]
  | bits type => (List.finRange type.fields.length).map (type.field offset)

/-- Members that read the same on every machine, with bit-fields counted from the
top. -/
def OnWire : FieldType → Prop
  | plain (.int type) => type.size = .one
  | plain (.bytes _ _) => True
  | plain _ => False
  | be _ => True
  | le _ => True
  | bits type =>
      (type.order = some .big ∨ type.order = none ∧ type.type.size = .one) ∧
        ∀ j : Fin type.fields.length, (type.fields.get j).width < 64

instance : (type : FieldType) → Decidable type.OnWire
  | plain .bool => .isFalse id
  | plain (.int type) => inferInstanceAs (Decidable (type.size = .one))
  | plain .float => .isFalse id
  | plain .double => .isFalse id
  | plain (.bytes _ _) => .isTrue trivial
  | be _ => .isTrue trivial
  | le _ => .isTrue trivial
  | bits type => inferInstanceAs (Decidable ((type.order = some .big ∨
      type.order = none ∧ type.type.size = .one) ∧
        ∀ j : Fin type.fields.length, (type.fields.get j).width < 64))

end FieldType

/-! ### Reading members -/

section Members

variable {native : WireEndian} {buffer : Bytes} {base offset : Nat}

theorem toList_ofFn_byteAt (buffer : Bytes) (off n : Nat) :
    (Vector.ofFn fun i : Fin n => byteAt buffer (off + i)).toList = readBytes buffer off n := by
  rw [readBytes_eq_map]
  apply List.ext_getElem
  · simp
  · intro i _ _
    simp

theorem toList_rawAt (type : IntType) (buffer : Bytes) (off : Nat) :
    (type.rawAt buffer off).toList = readBytes buffer off type.size.bytes :=
  toList_ofFn_byteAt _ _ _

theorem toNat_hostBig_rawAt (type : IntType) (buffer : Bytes) (off : Nat) :
    (type.hostBig (type.rawAt buffer off)).toNat = readBig buffer off type.size.bytes := by
  rw [toNat_hostBig, toList_rawAt, readBig_eq_bigValue]

theorem toNat_hostLittle_rawAt (type : IntType) (buffer : Bytes) (off : Nat) :
    (type.hostLittle (type.rawAt buffer off)).toNat = readLittle buffer off type.size.bytes := by
  rw [toNat_hostLittle, toList_rawAt, readLittle_eq_bigValue]

/-- Two's complement, both ways. -/
theorem toInt_eq_signedOfWord (type : IntType) (value : type.Value) :
    value.toInt = signedOfWord type.size.bytes value.toNat := by
  have bounded := value.isLt
  have half : 2 ^ type.bits = 2 * 2 ^ (8 * type.size.bytes - 1) := by
    unfold IntType.bits
    cases type.size <;> rfl
  rw [BitVec.toInt_eq_toNat_cond]
  unfold signedOfWord
  change (if 2 * value.toNat < 2 ^ type.bits then _ else _) = _
  rw [half]
  have whole : ((2 * 2 ^ (8 * type.size.bytes - 1) : Nat) : Int) = 2 ^ (8 * type.size.bytes) := by
    rw [← half]
    exact Int.natCast_pow 2 _
  by_cases small : value.toNat < 2 ^ (8 * type.size.bytes - 1)
  · rw [if_pos small, if_pos (by omega)]
  · rw [if_neg small, if_neg (by omega), whole]

theorem readField_scalar (type : IntType) (name : String) (order : WireEndian)
    (value : type.Value)
    (read : value.toNat = wordAt order buffer (base + offset) type.size.bytes) :
    readField buffer base ⟨name, offset, .scalar type.size.bytes type.signed order⟩ =
      (ElemType.int type).fieldValue value := by
  have word : readUint buffer base ⟨name, offset, .scalar type.size.bytes type.signed order⟩ =
      value.toNat := read.symm
  change _ = if type.signed then FieldValue.int value.toInt else .uint value.toNat
  cases signed : type.signed with
  | true =>
      rw [if_pos rfl, toInt_eq_signedOfWord, ← word, signed]
      rfl
  | false =>
      rw [if_neg Bool.false_ne_true, ← word, signed]
      rfl

/-- A byte has no order. -/
theorem wordAt_one (order : WireEndian) (buffer : Bytes) (off : Nat) :
    wordAt order buffer off 1 = (byteAt buffer off).toNat := by
  cases order
  · change 0 * 256 + (byteAt buffer off).toNat = _
    rw [Nat.zero_mul, Nat.zero_add]
  · change 0 * 256 + (byteAt buffer off).toNat = _
    rw [Nat.zero_mul, Nat.zero_add]

theorem toNat_valueAt_int (type : IntType) (native : WireEndian) (buffer : Bytes) (off : Nat)
    (one : type.size = .one) :
    BitVec.toNat (w := type.bits) ((ElemType.int type).valueAt native buffer off) =
      (byteAt buffer off).toNat := by
  change (BitVec.ofNat type.bits (wordAt native buffer off type.size.bytes)).toNat = _
  unfold IntType.bits
  rw [one]
  have small : (byteAt buffer off).toNat < 2 ^ 8 := byteAt_toNat_lt _ _
  change wordAt native buffer off 1 % 2 ^ 8 = _
  rw [wordAt_one, Nat.mod_eq_of_lt small]

/-- The word of a bit-field member, most significant byte first. -/
theorem toNat_host_wordAt {bits : BitsType}
    (onWire : bits.order = some .big ∨ bits.order = none ∧ bits.type.size = .one)
    (native : WireEndian) (buffer : Bytes) (off : Nat) :
    (bits.type.host bits.order (bits.type.wordAt native buffer off bits.order)).toNat =
      readBig buffer off bits.type.size.bytes := by
  rcases onWire with big | ⟨bare, one⟩
  · rw [big]
    exact toNat_hostBig_rawAt _ _ _
  · rw [bare]
    refine (toNat_valueAt_int bits.type native buffer off one).trans ?_
    rw [one]
    exact (wordAt_one .big buffer off).symm

/-- The columns of a member hold what its fields read. -/
theorem columns_read {type : FieldType} (onWire : type.OnWire) (name : String) :
    (type.columns name).map (fun column => (column.name,
      column.elem.fieldValue (column.get (type.objectAt native buffer (base + offset))))) =
    (type.wireFields name offset).map fun field => (field.name, readField buffer base field) := by
  cases type with
  | plain elem =>
      cases elem with
      | int type =>
          have read : BitVec.toNat (w := type.bits)
              ((ElemType.int type).valueAt native buffer (base + offset)) =
                wordAt .big buffer (base + offset) type.size.bytes := by
            rw [toNat_valueAt_int type native buffer _ onWire, (onWire : type.size = .one)]
            exact (wordAt_one _ _ _).symm
          exact congrArg (fun value => [(name, value)])
            (readField_scalar type name .big _ read).symm
      | bytes width positive =>
          have read := toList_ofFn_byteAt buffer (base + offset) width
          exact congrArg (fun value => [(name, FieldValue.bytes value)]) read
      | _ => exact onWire.elim
  | be type =>
      have read := toNat_hostBig_rawAt type buffer (base + offset)
      exact congrArg (fun value => [(name, value)]) (readField_scalar type name .big _ read).symm
  | le type =>
      have read := toNat_hostLittle_rawAt type buffer (base + offset)
      exact congrArg (fun value => [(name, value)])
        (readField_scalar type name .little _ read).symm
  | bits type =>
      unfold FieldType.columns FieldType.wireFields
      rw [List.map_map, List.map_map]
      apply List.map_congr_left
      intro j _
      change ((type.fields.get j).name, type.columnValue j _) = ((type.fields.get j).name, _)
      rw [type.columnValue_eq j (onWire.2 j), type.readField_field]
      unfold FieldType.objectAt
      rw [toNat_host_wordAt onWire.1]

end Members

/-! ### Structs -/

/-- A member of a struct, and whether the struct's description names it. -/
structure StructMember extends Member where
  described : Bool

/-- A struct, its members in the order of declaration. -/
abbrev WireStruct := List StructMember

namespace WireStruct

/-- The described members with their offsets. -/
def layoutFrom : Nat → List StructMember → List (Member × Nat)
  | _, [] => []
  | offset, member :: members =>
      let behind := layoutFrom (offset + member.type.size) members
      if member.described then (member.toMember, offset) :: behind else behind

variable (S : WireStruct)

def layout : List (Member × Nat) := layoutFrom 0 S

/-- `sizeof` the struct. -/
def size : Nat := (S.map fun member => member.type.size).sum

def described : Described := S.layout.map Prod.fst

def offsetOf (k : Nat) : Nat := (S.layout.map Prod.snd).getD k 0

/-- The wire spec that lists the columns. -/
def fields : WireSpec :=
  S.layout.flatMap fun placed => placed.1.type.wireFields placed.1.name placed.2

/-- `overlay`: copy the struct out of the buffer. -/
def overlay (native : WireEndian) (buffer : Bytes) (off : Nat) : Option S.described.Row :=
  if buffer.length < off + S.size then none
  else some fun k => (S.described.get k).type.objectAt native buffer (off + S.offsetOf k)

variable {S}

/-- The columns of the struct, in order, hold what the fields read. -/
theorem columns_overlay {native : WireEndian} {buffer : Bytes} {off : Nat}
    {row : S.described.Row} (onWire : ∀ placed ∈ S.layout, placed.1.type.OnWire)
    (copied : S.overlay native buffer off = some row) :
    S.described.columns.map (fun column => (column.name, column.elem.fieldValue (column.get row))) =
      S.fields.map fun field => (field.name, readField buffer off field) := by
  unfold overlay at copied
  split at copied
  · contradiction
  cases copied
  have placed : (List.finRange S.described.length).map
      (fun k : Fin S.described.length => (S.described.get k, S.offsetOf k)) =
      S.layout := by
    apply List.ext_getElem
    · simp [described]
    · intro k _ inside
      simp [described, offsetOf, inside]
  unfold Described.columns fields
  rw [List.map_flatMap, List.map_flatMap, ← placed, List.flatMap_map]
  apply List.flatMap_congr
  intro k _
  rw [List.map_map]
  have member : (S.described.get k, S.offsetOf k) ∈ S.layout := by
    rw [← placed]
    exact List.mem_map.mpr ⟨k, List.mem_finRange k, rfl⟩
  exact columns_read (onWire _ member) (S.described.get k).name

end WireStruct

/-- Wherever the struct fits, its copy has one column for every field of the spec,
and every column of that name holds what the field reads. -/
def ReadsAlike (spec : WireSpec) (S : WireStruct) : Prop :=
  ∀ (native : WireEndian) (buffer : Bytes) (off : Nat), off + S.size ≤ buffer.length →
    ∃ row, S.overlay native buffer off = some row ∧ ∀ field ∈ spec,
      (∃ column ∈ S.described.columns, column.name = field.name) ∧
      ∀ column ∈ S.described.columns, column.name = field.name →
        column.elem.fieldValue (column.get row) = readField buffer off field

theorem readsAlike_of_subset {spec : WireSpec} {S : WireStruct}
    (onWire : ∀ placed ∈ S.layout, placed.1.type.OnWire)
    (names : (S.fields.map Field.name).Nodup) (included : ∀ field ∈ spec, field ∈ S.fields) :
    ReadsAlike spec S := by
  intro native buffer off room
  obtain ⟨row, copied⟩ : ∃ row, S.overlay native buffer off = some row :=
    ⟨_, if_neg (Nat.not_lt.mpr room)⟩
  have columns := WireStruct.columns_overlay onWire copied
  refine ⟨row, copied, ?_⟩
  intro field member
  constructor
  · have listed := List.mem_map_of_mem (f := fun field => (field.name, readField buffer off field))
      (included field member)
    rw [← columns] at listed
    obtain ⟨column, inside, same⟩ := List.mem_map.mp listed
    exact ⟨column, inside, congrArg Prod.fst same⟩
  · intro column inside same
    have listed := List.mem_map_of_mem
      (f := fun column => (column.name, column.elem.fieldValue (column.get row))) inside
    rw [columns] at listed
    obtain ⟨other, otherMember, read⟩ := List.mem_map.mp listed
    obtain rfl : other = field := by
      apply List.inj_on_of_nodup_map names otherMember (included field member)
      exact (congrArg Prod.fst read).trans same
    exact (congrArg Prod.snd read).symm

/-! ### The structs of the protocols -/

namespace Protocols

def u8 : FieldType := .plain (.int ⟨false, .one⟩)
def i8 : FieldType := .plain (.int ⟨true, .one⟩)
def be16 : FieldType := .be ⟨false, .two⟩
def be32 : FieldType := .be ⟨false, .four⟩
def be64 : FieldType := .be ⟨false, .eight⟩

/-- An array of `n + 1` bytes. -/
def byteArray (n : Nat) : FieldType := .plain (.bytes (n + 1) (Nat.succ_pos n))

def member (name : String) (type : FieldType) : StructMember := ⟨⟨name, type⟩, true⟩

/-- A member that the description of the struct leaves out. -/
def undescribed (name : String) (type : FieldType) : StructMember := ⟨⟨name, type⟩, false⟩

def Ethernet : WireStruct :=
  [member "dst" (byteArray 5), member "src" (byteArray 5), member "ethertype" be16]

def VlanTag : WireStruct :=
  [member "tci" (.bits ⟨⟨false, .two⟩, some .big, [⟨"pcp", 3⟩, ⟨"dei", 1⟩, ⟨"vid", 12⟩], rfl⟩),
    member "inner_ethertype" be16]

def Ipv4 : WireStruct :=
  [member "ver_ihl" (.bits ⟨⟨false, .one⟩, none, [⟨"version", 4⟩, ⟨"ihl", 4⟩], rfl⟩),
    member "dscp_ecn" (.bits ⟨⟨false, .one⟩, none, [⟨"dscp", 6⟩, ⟨"ecn", 2⟩], rfl⟩),
    member "total_length" be16, member "identification" be16,
    member "flags_frag"
      (.bits ⟨⟨false, .two⟩, some .big, [⟨"flags", 3⟩, ⟨"frag_offset", 13⟩], rfl⟩),
    member "ttl" u8, member "protocol" u8, member "checksum" be16, member "src" (byteArray 3),
    member "dst" (byteArray 3)]

def Ipv6 : WireStruct :=
  [member "vtf" (.bits ⟨⟨false, .four⟩, some .big,
      [⟨"version", 4⟩, ⟨"traffic_class", 8⟩, ⟨"flow_label", 20⟩], rfl⟩),
    member "payload_length" be16, member "next_header" u8, member "hop_limit" u8,
    member "src" (byteArray 15), member "dst" (byteArray 15)]

def Udp : WireStruct :=
  [member "src_port" be16, member "dst_port" be16, member "length" be16, member "checksum" be16]

def Tcp : WireStruct :=
  [member "src_port" be16, member "dst_port" be16, member "seq" be32, member "ack" be32,
    member "off_flags" (.bits ⟨⟨false, .two⟩, some .big,
      [⟨"data_offset", 4⟩, ⟨"reserved", 3⟩, ⟨"flags", 9⟩], rfl⟩),
    member "window" be16, member "checksum" be16, member "urgent_ptr" be16]

def Gptp : WireStruct :=
  [member "ts_msgtype"
      (.bits ⟨⟨false, .one⟩, none, [⟨"transport_specific", 4⟩, ⟨"message_type", 4⟩], rfl⟩),
    member "rsv_version"
      (.bits ⟨⟨false, .one⟩, none, [⟨"reserved0", 4⟩, ⟨"version_ptp", 4⟩], rfl⟩),
    member "message_length" be16, member "domain_number" u8, undescribed "reserved1" u8,
    member "flags" be16, member "correction_field" be64, undescribed "reserved2" be32,
    member "clock_identity" (byteArray 7), member "source_port_number" be16,
    member "sequence_id" be16, member "control_field" u8, member "log_message_interval" i8]

end Protocols

/-- The header specs and the structs for the same headers. -/
def headerStructs : List (WireSpec × WireStruct) :=
  [(EthernetSpec.fields, Protocols.Ethernet), (VlanTagSpec.fields, Protocols.VlanTag),
    (Ipv4Spec.fields, Protocols.Ipv4), (Ipv6Spec.fields, Protocols.Ipv6),
    (TcpSpec.fields, Protocols.Tcp), (UdpSpec.fields, Protocols.Udp),
    (PtpHeaderSpec.fields, Protocols.Gptp)]

/-- The sizes that the source asserts. -/
example : headerStructs.map (fun placed => placed.2.size) = [14, 4, 20, 40, 20, 8, 34] := by decide

theorem onWire_headerStructs :
    ∀ placed ∈ headerStructs, ∀ part ∈ placed.2.layout, part.1.type.OnWire := by
  decide

theorem nodup_headerStructs :
    ∀ placed ∈ headerStructs, (placed.2.fields.map Field.name).Nodup := by
  decide

theorem subset_headerStructs :
    ∀ placed ∈ headerStructs, ∀ field ∈ placed.1, field ∈ placed.2.fields := by
  decide

/-! ### Agreement -/

/-- The columns of a word read what the fields of a spec read in its bytes, and
shifted back they make the word, without sharing a bit. -/
def CutAlike (bits : BitsType) (word : bits.Word) (bytes : Bytes) : Prop :=
  (∀ j, bits.columnValue j word = readField bytes 0 (bits.field 0 j)) ∧
    (List.finRange bits.fields.length).foldl (fun acc j =>
      acc ||| (bits.columnValue j word).word <<< bits.shiftAt j) 0 = bigValue bytes ∧
    ∀ i j, i ≠ j →
      ((bits.columnValue i word).word <<< bits.shiftAt i) &&&
        ((bits.columnValue j word).word <<< bits.shiftAt j) = 0

theorem cutAlike_of_spelled {bits : BitsType} {word : bits.Word} {bytes : Bytes}
    (narrow : ∀ j : Fin bits.fields.length, (bits.fields.get j).width < 64)
    (length : bytes.length = bits.type.size.bytes)
    (spelled : (bits.type.host bits.order word).toNat = bigValue bytes) :
    CutAlike bits word bytes := by
  refine ⟨?_, ?_, ?_⟩
  · intro j
    have whole := readBytes_self bytes
    rw [length] at whole
    rw [bits.columnValue_eq j (narrow j), bits.readField_field, Nat.add_zero, readBig_eq_bigValue,
      whole, spelled]
  · rw [bits.or_columnValue narrow, spelled]
  · intro i j other
    exact bits.columnValue_disjoint narrow word other

/-- Big-endian words are cut as wire specs cut them, and every column of the header
specs is the column of that name of the struct for the header. -/
theorem overlay_agrees :
    (∀ (type : IntType) (fields : List SubField)
      (sum_widths : (fields.map SubField.width).sum = type.bits),
      (∀ field ∈ fields, field.width < 64) → ∀ raw : type.Raw,
        CutAlike ⟨type, some .big, fields, sum_widths⟩ raw raw.toList) ∧
    ∀ placed ∈ headerStructs, ReadsAlike placed.1 placed.2 := by
  constructor
  · intro type fields sum_widths narrow raw
    apply cutAlike_of_spelled
    · intro j
      exact narrow _ (List.getElem_mem j.isLt)
    · exact Vector.length_toList
    · exact toNat_hostBig type raw
  · intro placed member
    exact readsAlike_of_subset (onWire_headerStructs placed member)
      (nodup_headerStructs placed member) (subset_headerStructs placed member)

theorem overlay_agrees_vlan :
    CutAlike ⟨⟨false, .two⟩, some .big, [⟨"pcp", 3⟩, ⟨"dei", 1⟩, ⟨"vid", 12⟩], rfl⟩
        (#v[0x60, 0x05] : IntType.Raw ⟨false, .two⟩) [0x60, 0x05] ∧
      ReadsAlike VlanTagSpec.fields Protocols.VlanTag :=
  ⟨overlay_agrees.1 ⟨false, .two⟩ [⟨"pcp", 3⟩, ⟨"dei", 1⟩, ⟨"vid", 12⟩] rfl (by decide)
      #v[0x60, 0x05],
    overlay_agrees.2 (VlanTagSpec.fields, Protocols.VlanTag) (.tail _ (.head _))⟩

end Nanotins.Soatins
