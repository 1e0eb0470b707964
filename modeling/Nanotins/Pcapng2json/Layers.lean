import Nanotins.Library.HexText
import Nanotins.ProtocolDecode.WalkPacket

/-!
Contract: the text that pcapng2json prints of a header.

Owns: the address formats, the fields printed of each header, that the text is a
JSON document without escapes, and that the document gives the fields back
(`readLayer_document`).

Does not own: which headers a packet has.
-/

namespace Nanotins.Pcapng2json

open Nanotins.Library Nanotins.ProtocolDecode

/-! ### Formats -/

/-- `"key":value`. -/
def appendU64 (key : String) (v : Nat) : Text :=
  quoted key.toList ++ ':' :: snprintf 32 (Nat.toDigits 10 v)

def hex16 (v : Nat) : Text := snprintf 8 ('0' :: 'x' :: paddedHex 4 v)

/-- Two digits for each byte, the bytes apart. -/
def mac (a : Bytes) : Text :=
  snprintf 24 (List.intercalate [':'] (a.map fun byte => paddedHex 2 byte.toNat))

def ipv4 (a : Bytes) : Text :=
  snprintf 16 (List.intercalate ['.'] (a.map fun byte => Nat.toDigits 10 byte.toNat))

/-- The pairs of bytes of an address. -/
def groups : Bytes → List Bytes
  | high :: low :: rest => [high, low] :: groups rest
  | _ => []

def ipv6 (a : Bytes) : Text := snprintf 40 (List.intercalate [':'] ((groups a).map hexBytes))

/-! ### Layers -/

/-- The fields that are printed of a header. -/
inductive Layer where
  | ethernet (dst src : Bytes) (ethertype : Nat)
  | vlan (vid innerEthertype : Nat)
  | ipv4 (src dst : Bytes) (protocol ttl totalLength : Nat)
  | ipv6 (src dst : Bytes) (nextHeader hopLimit : Nat)
  | tcp (srcPort dstPort : Nat)
  | udp (srcPort dstPort : Nat)
deriving DecidableEq, Repr

namespace Layer

/-- What the callback for the header reads of it. -/
def ofPdu (x : Pdu) : Layer :=
  match x.type with
  | .ethernet =>
      ethernet (readBytes x.bytes 0 6) (readBytes x.bytes 6 6) (Ethernet.ethertype x.bytes)
  | .vlan => vlan (readBig x.bytes 0 2 % 2 ^ 12) (VlanTag.innerEthertype x.bytes)
  | .ipv4 =>
      ipv4 (readBytes x.bytes 12 4) (readBytes x.bytes 16 4) (Ipv4.protocol x.bytes)
        (readBig x.bytes 8 1) (readBig x.bytes 2 2)
  | .ipv6 =>
      ipv6 (readBytes x.bytes 8 16) (readBytes x.bytes 24 16) (Ipv6.nextHeader x.bytes)
        (readBig x.bytes 7 1)
  | .tcp => tcp (ProtocolDecode.srcPort x.bytes) (ProtocolDecode.dstPort x.bytes)
  | .udp => udp (ProtocolDecode.srcPort x.bytes) (ProtocolDecode.dstPort x.bytes)

/-- What the callback appends behind the brace, piece by piece. -/
def pieces : Layer → List Text
  | ethernet dst src ethertype =>
      ["\"type\":\"ethernet\",\"dst\":\"".toList, mac dst, "\",\"src\":\"".toList, mac src,
        "\",\"ethertype\":\"".toList, hex16 ethertype, "\"\x7d".toList]
  | vlan vid innerEthertype =>
      ["\"type\":\"vlan\",".toList, appendU64 "vid" vid, ",\"inner_ethertype\":\"".toList,
        hex16 innerEthertype, "\"\x7d".toList]
  | ipv4 src dst protocol ttl totalLength =>
      ["\"type\":\"ipv4\",\"src\":\"".toList, Pcapng2json.ipv4 src, "\",\"dst\":\"".toList,
        Pcapng2json.ipv4 dst, "\",".toList, appendU64 "protocol" protocol, ",".toList,
        appendU64 "ttl" ttl, ",".toList, appendU64 "total_length" totalLength, "\x7d".toList]
  | ipv6 src dst nextHeader hopLimit =>
      ["\"type\":\"ipv6\",\"src\":\"".toList, Pcapng2json.ipv6 src, "\",\"dst\":\"".toList,
        Pcapng2json.ipv6 dst, "\",".toList, appendU64 "next_header" nextHeader, ",".toList,
        appendU64 "hop_limit" hopLimit, "\x7d".toList]
  | tcp srcPort dstPort =>
      ["\"type\":\"tcp\",".toList, appendU64 "src_port" srcPort, ",".toList,
        appendU64 "dst_port" dstPort, "\x7d".toList]
  | udp srcPort dstPort =>
      ["\"type\":\"udp\",".toList, appendU64 "src_port" srcPort, ",".toList,
        appendU64 "dst_port" dstPort, "\x7d".toList]

/-- The brace of `open` and what follows it. -/
def text (layer : Layer) : Text := '{' :: layer.pieces.flatten

/-- Every field has a value of its type. -/
def Fits : Layer → Prop
  | ethernet dst src ethertype => dst.length = 6 ∧ src.length = 6 ∧ ethertype < 2 ^ 16
  | vlan vid innerEthertype => vid < 2 ^ 12 ∧ innerEthertype < 2 ^ 16
  | ipv4 src dst protocol ttl totalLength =>
      src.length = 4 ∧ dst.length = 4 ∧ protocol < 2 ^ 8 ∧ ttl < 2 ^ 8 ∧ totalLength < 2 ^ 16
  | ipv6 src dst nextHeader hopLimit =>
      src.length = 16 ∧ dst.length = 16 ∧ nextHeader < 2 ^ 8 ∧ hopLimit < 2 ^ 8
  | tcp srcPort dstPort | udp srcPort dstPort => srcPort < 2 ^ 16 ∧ dstPort < 2 ^ 16

theorem fits_ofPdu (x : Pdu) : (ofPdu x).Fits := by
  have word : ∀ off, readBig x.bytes off 2 < 2 ^ 16 := fun off => readBig_lt x.bytes off 2
  have byte : ∀ off, readBig x.bytes off 1 < 2 ^ 8 := fun off => readBig_lt x.bytes off 1
  rw [ofPdu]
  cases x.type with
  | ethernet => exact ⟨length_readBytes _ _ _, length_readBytes _ _ _, word 12⟩
  | vlan => exact ⟨Nat.mod_lt _ (Nat.two_pow_pos 12), word 2⟩
  | ipv4 => exact ⟨length_readBytes _ _ _, length_readBytes _ _ _, byte 9, byte 8, word 2⟩
  | ipv6 => exact ⟨length_readBytes _ _ _, length_readBytes _ _ _, byte 6, byte 7⟩
  | tcp => exact ⟨word 0, word 2⟩
  | udp => exact ⟨word 0, word 2⟩

end Layer

/-! ### Reading the formats -/

/-- Digits apart from their separators. -/
def readAddress (text : Text) : Option Bytes := readHexBytes (text.splitOn ':').flatten

def readIpv4 (text : Text) : Bytes :=
  (text.splitOn '.').map fun part => UInt8.ofNat (Nat.ofDigitChars 10 part 0)

def readHex16 (text : Text) : Nat := digitsValue 16 (text.drop 2)

section Formats

variable {a : Bytes} {v : Nat}

theorem appendU64_eq (key : String) (bounded : v < 2 ^ 64) :
    appendU64 key v = Json.renderMember (key.toList, .num v) := by
  have digits : (Nat.toDigits 10 v).length ≤ 20 :=
    (Nat.length_toDigits_le_iff (by decide) (by decide)).mpr (Nat.lt_trans bounded (by decide))
  rw [appendU64, snprintf_of_lt (by omega), Json.renderMember, Json.render]

theorem hex16_eq (bounded : v < 2 ^ 16) : hex16 v = '0' :: 'x' :: paddedHex 4 v := by
  have digits : (paddedHex 4 v).length = 4 := length_paddedHex (by decide) bounded
  apply snprintf_of_lt
  rw [List.length_cons, List.length_cons, digits]
  decide

theorem readHex16_hex16 (bounded : v < 2 ^ 16) : readHex16 (hex16 v) = v := by
  rw [hex16_eq bounded]
  exact digitsValue_paddedHex 4 v

theorem plain_hex16 (bounded : v < 2 ^ 16) : Json.PlainText (hex16 v) := by
  rw [hex16_eq bounded]
  exact List.forall_mem_cons.mpr ⟨rfl, List.forall_mem_cons.mpr ⟨rfl, plainText_paddedHex 4 v⟩⟩

/-! Addresses -/

theorem colon_not_mem {text : Text} (digits : ∀ c ∈ text, ∃ digit < 16, c = Nat.digitChar digit) :
    ':' ∉ text := by
  have all : ∀ digit < 16, ':' ≠ Nat.digitChar digit := by decide
  intro member
  obtain ⟨digit, below, same⟩ := digits ':' member
  exact all digit below same

theorem readAddress_intercalate {parts : List Text} (nonempty : parts ≠ [])
    (digits : ∀ part ∈ parts, ∀ c ∈ part, ∃ digit < 16, c = Nat.digitChar digit) :
    readAddress (List.intercalate [':'] parts) = readHexBytes parts.flatten := by
  have apart : ∀ part ∈ parts, ':' ∉ part := fun part member => colon_not_mem (digits part member)
  rw [readAddress, List.splitOn_intercalate ':' apart nonempty]

theorem map_ne_nil_of_length {α β : Type} {list : List α} {n : Nat} (length : list.length = n + 1)
    (f : α → β) : list.map f ≠ [] := by
  rw [Ne, List.map_eq_nil_iff, ← List.length_eq_zero_iff, length]
  exact Nat.succ_ne_zero n

theorem mac_eq (length : a.length = 6) :
    mac a = List.intercalate [':'] (a.map fun byte => paddedHex 2 byte.toNat) := by
  have each : ∀ part ∈ a.map (fun byte => paddedHex 2 byte.toNat), part.length ≤ 2 := by
    refine List.forall_mem_map.mpr fun byte _ => ?_
    rw [length_paddedHex (by decide) byte.toNat_lt]
  have short := length_intercalate_lt ':' (map_ne_nil_of_length length _) each
  rw [List.length_map, length] at short
  exact snprintf_of_lt (by omega)

theorem readAddress_mac (length : a.length = 6) : readAddress (mac a) = some a := by
  rw [mac_eq length, readAddress_intercalate (map_ne_nil_of_length length _), ← List.flatMap_def]
  · exact readHexBytes_hexBytes a
  · exact List.forall_mem_map.mpr fun byte _ c => mem_paddedHex

theorem plain_mac (length : a.length = 6) : Json.PlainText (mac a) := by
  rw [mac_eq length]
  exact plainText_intercalate rfl (List.forall_mem_map.mpr fun byte _ => plainText_paddedHex 2 _)

theorem length_groups (half : Nat) (even : a.length = 2 * half) :
    (groups a).length = half ∧ (groups a).flatten = a ∧ ∀ pair ∈ groups a, pair.length = 2 := by
  induction half generalizing a with
  | zero =>
      rw [List.length_eq_zero_iff] at even
      rw [even]
      exact ⟨rfl, rfl, List.forall_mem_nil _⟩
  | succ half inductionHypothesis =>
      obtain ⟨high, low, rest, rfl⟩ : ∃ high low rest, a = high :: low :: rest := by
        match a, even with
        | high :: low :: rest, _ => exact ⟨high, low, rest, rfl⟩
      obtain ⟨count, whole, pairs⟩ := inductionHypothesis (a := rest) (by simp at even; omega)
      rw [groups, List.length_cons, count, List.flatten_cons, whole]
      exact ⟨rfl, rfl, List.forall_mem_cons.mpr ⟨rfl, pairs⟩⟩

theorem ipv6_eq (length : a.length = 16) :
    ipv6 a = List.intercalate [':'] ((groups a).map hexBytes) := by
  obtain ⟨count, -, pairs⟩ := length_groups 8 length
  have each : ∀ part ∈ (groups a).map hexBytes, part.length ≤ 4 := by
    refine List.forall_mem_map.mpr fun pair member => ?_
    rw [length_hexBytes, pairs pair member]
  have short := length_intercalate_lt ':' (map_ne_nil_of_length count _) each
  rw [List.length_map, count] at short
  exact snprintf_of_lt short

theorem readAddress_ipv6 (length : a.length = 16) : readAddress (ipv6 a) = some a := by
  obtain ⟨count, whole, -⟩ := length_groups 8 length
  have bytes : ((groups a).map hexBytes).flatten = hexBytes a := by
    rw [← List.flatMap_def]
    conv_rhs => rw [← whole]
    simp only [hexBytes, List.flatMap_def, List.map_flatten, List.flatten_flatten, List.map_map]
    rfl
  rw [ipv6_eq length, readAddress_intercalate (map_ne_nil_of_length count _), bytes,
    readHexBytes_hexBytes]
  exact List.forall_mem_map.mpr fun pair _ c => mem_hexBytes

theorem plain_ipv6 (length : a.length = 16) : Json.PlainText (ipv6 a) := by
  rw [ipv6_eq length]
  exact plainText_intercalate rfl (List.forall_mem_map.mpr fun pair _ => plainText_hexBytes pair)

theorem ipv4_eq (length : a.length = 4) :
    ipv4 a = List.intercalate ['.'] (a.map fun byte => Nat.toDigits 10 byte.toNat) := by
  have each : ∀ part ∈ a.map (fun byte => Nat.toDigits 10 byte.toNat), part.length ≤ 3 := by
    refine List.forall_mem_map.mpr fun byte _ => ?_
    exact (Nat.length_toDigits_le_iff (by decide) (by decide)).mpr
      (Nat.lt_trans byte.toNat_lt (by decide))
  have short := length_intercalate_lt '.' (map_ne_nil_of_length length _) each
  rw [List.length_map, length] at short
  exact snprintf_of_lt short

theorem readIpv4_ipv4 (length : a.length = 4) : readIpv4 (ipv4 a) = a := by
  have apart : ∀ part ∈ a.map (fun byte => Nat.toDigits 10 byte.toNat), '.' ∉ part := by
    refine List.forall_mem_map.mpr fun byte _ member => ?_
    have digit := Json.isDigit_of_mem_toDigits member
    contradiction
  rw [ipv4_eq length, readIpv4, List.splitOn_intercalate '.' apart (map_ne_nil_of_length length _),
    List.map_map]
  refine (List.map_congr_left fun byte _ => ?_).trans (List.map_id a)
  show UInt8.ofNat (Nat.ofDigitChars 10 (Nat.toDigits 10 byte.toNat) 0) = byte
  rw [Nat.ofDigitChars_ten_toDigits, UInt8.ofNat_toNat]

theorem plain_ipv4 (length : a.length = 4) : Json.PlainText (ipv4 a) := by
  rw [ipv4_eq length]
  exact plainText_intercalate rfl (List.forall_mem_map.mpr fun byte _ c member =>
    Json.plainChar_of_isDigit (Json.isDigit_of_mem_toDigits member))

end Formats

/-! ### Documents -/

namespace Layer

def type : Layer → PduType
  | ethernet .. => .ethernet
  | vlan .. => .vlan
  | ipv4 .. => .ipv4
  | ipv6 .. => .ipv6
  | tcp .. => .tcp
  | udp .. => .udp

def typeName : PduType → String
  | .ethernet => "ethernet"
  | .vlan => "vlan"
  | .ipv4 => "ipv4"
  | .ipv6 => "ipv6"
  | .tcp => "tcp"
  | .udp => "udp"

def typeNamed (name : Text) : Option PduType :=
  [.ethernet, .vlan, .ipv4, .ipv6, .tcp, .udp].find? fun type => (typeName type).toList = name

theorem typeNamed_typeName (type : PduType) : typeNamed (typeName type).toList = some type := by
  cases type <;> decide +kernel

/-- The members behind the type. -/
def members : Layer → List (Text × Json)
  | ethernet dst src ethertype =>
      [("dst".toList, .str (mac dst)), ("src".toList, .str (mac src)),
        ("ethertype".toList, .str (hex16 ethertype))]
  | vlan vid innerEthertype =>
      [("vid".toList, .num vid), ("inner_ethertype".toList, .str (hex16 innerEthertype))]
  | ipv4 src dst protocol ttl totalLength =>
      [("src".toList, .str (Pcapng2json.ipv4 src)), ("dst".toList, .str (Pcapng2json.ipv4 dst)),
        ("protocol".toList, .num protocol), ("ttl".toList, .num ttl),
        ("total_length".toList, .num totalLength)]
  | ipv6 src dst nextHeader hopLimit =>
      [("src".toList, .str (Pcapng2json.ipv6 src)), ("dst".toList, .str (Pcapng2json.ipv6 dst)),
        ("next_header".toList, .num nextHeader), ("hop_limit".toList, .num hopLimit)]
  | tcp srcPort dstPort | udp srcPort dstPort =>
      [("src_port".toList, .num srcPort), ("dst_port".toList, .num dstPort)]

def document (layer : Layer) : Json :=
  .obj (("type".toList, .str (typeName layer.type).toList) :: layer.members)

end Layer

/-- The layer that a document describes. -/
def readLayer (json : Json) : Option Layer := do
  match Layer.typeNamed (← json.getStr "type") with
  | some .ethernet =>
      return .ethernet (← readAddress (← json.getStr "dst")) (← readAddress (← json.getStr "src"))
        (readHex16 (← json.getStr "ethertype"))
  | some .vlan =>
      return .vlan (← json.getNum "vid") (readHex16 (← json.getStr "inner_ethertype"))
  | some .ipv4 =>
      return .ipv4 (readIpv4 (← json.getStr "src")) (readIpv4 (← json.getStr "dst"))
        (← json.getNum "protocol") (← json.getNum "ttl") (← json.getNum "total_length")
  | some .ipv6 =>
      return .ipv6 (← readAddress (← json.getStr "src")) (← readAddress (← json.getStr "dst"))
        (← json.getNum "next_header") (← json.getNum "hop_limit")
  | some .tcp => return .tcp (← json.getNum "src_port") (← json.getNum "dst_port")
  | some .udp => return .udp (← json.getNum "src_port") (← json.getNum "dst_port")
  | none => none

section Layer

variable {layer : Layer}

theorem readLayer_document (fits : layer.Fits) : readLayer layer.document = some layer := by
  have type : layer.document.getStr "type" = some (Layer.typeName layer.type).toList := by
    rw [Layer.document, Json.getStr, Json.getMember_obj_cons, if_pos rfl]
  rw [readLayer, type]
  dsimp only [bind, Option.bind]
  rw [Layer.typeNamed_typeName]
  cases layer with
  | ethernet dst src ethertype =>
      obtain ⟨dstLength, srcLength, bounded⟩ := fits
      simp only [Layer.type, Layer.document, Layer.members, Json.getStr, Json.getMember_obj_cons,
        String.reduceEq, ↓reduceIte, readAddress_mac dstLength, readAddress_mac srcLength,
        readHex16_hex16 bounded, pure]
  | vlan vid innerEthertype =>
      simp only [Layer.type, Layer.document, Layer.members, Json.getStr, Json.getNum,
        Json.getMember_obj_cons, String.reduceEq, ↓reduceIte, readHex16_hex16 fits.2, pure]
  | ipv4 src dst protocol ttl totalLength =>
      simp only [Layer.type, Layer.document, Layer.members, Json.getStr, Json.getNum,
        Json.getMember_obj_cons, String.reduceEq, ↓reduceIte, readIpv4_ipv4 fits.1,
        readIpv4_ipv4 fits.2.1, pure]
  | ipv6 src dst nextHeader hopLimit =>
      simp only [Layer.type, Layer.document, Layer.members, Json.getStr, Json.getNum,
        Json.getMember_obj_cons, String.reduceEq, ↓reduceIte, readAddress_ipv6 fits.1,
        readAddress_ipv6 fits.2.1, pure]
  | tcp srcPort dstPort =>
      simp only [Layer.type, Layer.document, Layer.members, Json.getNum, Json.getMember_obj_cons,
        String.reduceEq, ↓reduceIte, pure]
  | udp srcPort dstPort =>
      simp only [Layer.type, Layer.document, Layer.members, Json.getNum, Json.getMember_obj_cons,
        String.reduceEq, ↓reduceIte, pure]

/-- The text of a layer is its document. -/
theorem text_eq (fits : layer.Fits) : layer.text = layer.document.render := by
  have word : ∀ {v : Nat}, v < 2 ^ 16 → v < 2 ^ 64 := fun small => Nat.lt_trans small (by decide)
  have byte : ∀ {v : Nat}, v < 2 ^ 8 → v < 2 ^ 64 := fun small => Nat.lt_trans small (by decide)
  cases layer with
  | ethernet dst src ethertype =>
      simp [Layer.text, Layer.pieces, Layer.document, Layer.typeName, Layer.type,
        Layer.members, Json.render, Json.renderMembers_eq, Json.renderMember, joined, quoted]
  | vlan vid innerEthertype =>
      have number := appendU64_eq "vid" (Nat.lt_trans fits.1 (by decide))
      simp [Layer.text, Layer.pieces, Layer.document, Layer.typeName, Layer.type,
        Layer.members, Json.render, Json.renderMembers_eq, Json.renderMember, joined, quoted,
        number]
  | ipv4 src dst protocol ttl totalLength =>
      obtain ⟨-, -, protocolFits, ttlFits, lengthFits⟩ := fits
      simp [Layer.text, Layer.pieces, Layer.document, Layer.typeName, Layer.type,
        Layer.members, Json.render, Json.renderMembers_eq, Json.renderMember, joined, quoted,
        appendU64_eq "protocol" (byte protocolFits), appendU64_eq "ttl" (byte ttlFits),
        appendU64_eq "total_length" (word lengthFits)]
  | ipv6 src dst nextHeader hopLimit =>
      obtain ⟨-, -, nextFits, hopFits⟩ := fits
      simp [Layer.text, Layer.pieces, Layer.document, Layer.typeName, Layer.type,
        Layer.members, Json.render, Json.renderMembers_eq, Json.renderMember, joined, quoted,
        appendU64_eq "next_header" (byte nextFits), appendU64_eq "hop_limit" (byte hopFits)]
  | tcp srcPort dstPort =>
      simp [Layer.text, Layer.pieces, Layer.document, Layer.typeName, Layer.type,
        Layer.members, Json.render, Json.renderMembers_eq, Json.renderMember, joined, quoted,
        appendU64_eq "src_port" (word fits.1), appendU64_eq "dst_port" (word fits.2)]
  | udp srcPort dstPort =>
      simp [Layer.text, Layer.pieces, Layer.document, Layer.typeName, Layer.type,
        Layer.members, Json.render, Json.renderMembers_eq, Json.renderMember, joined, quoted,
        appendU64_eq "src_port" (word fits.1), appendU64_eq "dst_port" (word fits.2)]

theorem plain_members (fits : layer.Fits) :
    ∀ member ∈ layer.members, Json.PlainText member.1 ∧ member.2.Plain := by
  cases layer with
  | ethernet dst src ethertype =>
      obtain ⟨dstLength, srcLength, bounded⟩ := fits
      simp only [Layer.members, List.forall_mem_cons, List.not_mem_nil, false_implies,
        implies_true, and_true]
      exact ⟨⟨by decide +kernel, .str (plain_mac dstLength)⟩,
        ⟨by decide +kernel, .str (plain_mac srcLength)⟩,
        by decide +kernel, .str (plain_hex16 bounded)⟩
  | vlan vid innerEthertype =>
      simp only [Layer.members, List.forall_mem_cons, List.not_mem_nil, false_implies,
        implies_true, and_true]
      exact ⟨⟨by decide +kernel, .num vid⟩, by decide +kernel, .str (plain_hex16 fits.2)⟩
  | ipv4 src dst protocol ttl totalLength =>
      simp only [Layer.members, List.forall_mem_cons, List.not_mem_nil, false_implies,
        implies_true, and_true]
      exact ⟨⟨by decide +kernel, .str (plain_ipv4 fits.1)⟩,
        ⟨by decide +kernel, .str (plain_ipv4 fits.2.1)⟩, ⟨by decide +kernel, .num protocol⟩,
        ⟨by decide +kernel, .num ttl⟩, by decide +kernel, .num totalLength⟩
  | ipv6 src dst nextHeader hopLimit =>
      simp only [Layer.members, List.forall_mem_cons, List.not_mem_nil, false_implies,
        implies_true, and_true]
      exact ⟨⟨by decide +kernel, .str (plain_ipv6 fits.1)⟩,
        ⟨by decide +kernel, .str (plain_ipv6 fits.2.1)⟩, ⟨by decide +kernel, .num nextHeader⟩,
        by decide +kernel, .num hopLimit⟩
  | tcp srcPort dstPort =>
      simp only [Layer.members, List.forall_mem_cons, List.not_mem_nil, false_implies,
        implies_true, and_true]
      exact ⟨⟨by decide +kernel, .num srcPort⟩, by decide +kernel, .num dstPort⟩
  | udp srcPort dstPort =>
      simp only [Layer.members, List.forall_mem_cons, List.not_mem_nil, false_implies,
        implies_true, and_true]
      exact ⟨⟨by decide +kernel, .num srcPort⟩, by decide +kernel, .num dstPort⟩

theorem plain_document (fits : layer.Fits) : layer.document.Plain := by
  have names : ∀ type : PduType, Json.PlainText (Layer.typeName type).toList := by
    intro type
    cases type <;> decide +kernel
  have key : Json.PlainText "type".toList := by decide +kernel
  exact Json.plain_obj
    (List.forall_mem_cons.mpr ⟨⟨key, .str (names layer.type)⟩, plain_members fits⟩)

end Layer

end Nanotins.Pcapng2json
