import Mathlib.Data.List.Nodup
import Mathlib.Data.List.TakeWhile
import Nanotins.Library.CString
import Nanotins.SpecDag.Boundaries

/-!
Contract: where the fields that rules name lie, as `dpar.hpp` catalogs them.

Owns: field references, their runtime reader, the catalog of the L2/L3 graph and
its lookups, that every entry is found under its names, and that a reference to a
field says what the field's spec does.

Does not own: rules, or how their text is compiled.
-/

namespace Nanotins.Dpar

open Nanotins.Library Nanotins.Wire Nanotins.SpecDag

/-! ### Graph nodes -/

/-- The nodes of the graph; a node's id is its position. -/
def nodes : List L2L3Node :=
  [.eth, .vlan, .ipv4, .ipv6, .tcp, .udp, .gptp, .ptpTimestampBody, .ptpTsPortBody,
    .ptpAnnounceBody, .ptpSignalingBody, .ipv6HopByHop, .ipv6Routing, .ipv6Fragment, .ipv6DestOpt,
    .ipv6Ah, .someip]

def nodeId (node : L2L3Node) : Nat := nodes.idxOf node

def kL2L3NodeNames : List String :=
  ["eth", "vlan", "ipv4", "ipv6", "tcp", "udp", "gptp", "ptp_timestamp", "ptp_ts_port",
    "ptp_announce", "ptp_signaling", "ipv6_hbh", "ipv6_routing", "ipv6_fragment", "ipv6_destopt",
    "ipv6_ah", "someip"]

theorem getElem?_nodes_nodeId (node : L2L3Node) : nodes[nodeId node]? = some node := by
  cases node <;> rfl

theorem nodeId_lt (node : L2L3Node) : nodeId node < nodes.length := by
  cases node <;> decide

theorem eq_nodeId {i : Nat} {node : L2L3Node} (found : nodes[i]? = some node) :
    i = nodeId node := by
  rcases List.getElem?_eq_some_iff.mp found with ⟨below, rfl⟩
  exact (List.Nodup.idxOf_getElem (by decide) i below).symm

/-! ### Field references -/

structure FieldRef where
  nodeId : Nat
  /-- Byte offset within the node's header. -/
  offset : Nat
  /-- Bytes to read: the scalar's size, or the storage unit's. -/
  byteWidth : Nat
  bigEndian : Bool
  isBitfield : Bool
  bitOffset : Nat
  bitWidth : Nat
deriving DecidableEq, Repr

/-- The width that an operand is checked against. -/
def FieldRef.bits (ref : FieldRef) : Nat :=
  if ref.isBitfield then ref.bitWidth else ref.byteWidth * 8

/-- The table-driven mirror of the field reader. -/
def readFieldRuntimeM {m : Type → Type} [Monad m] (rd : Nat → m UInt8) (base : Nat)
    (f : FieldRef) : m Nat := do
  let word ← readScalarM rd (if f.bigEndian then .big else .little) (base + f.offset) f.byteWidth
  -- the accumulator is a `uint64_t`
  let v := word % 2 ^ 64
  if !f.isBitfield then
    return v
  else
    let width := if 64 ≤ f.bitWidth then 64 else f.bitWidth
    let shift := if f.bigEndian then f.byteWidth * 8 - f.bitWidth - f.bitOffset else f.bitOffset
    return v / 2 ^ shift % 2 ^ width

def readFieldRuntime (pkt : Bytes) (base : Nat) (f : FieldRef) : Nat :=
  Id.run (readFieldRuntimeM (byteAt pkt) base f)

/-- A byte-array field has no reference; all others are narrowed to the widths
of the record. -/
def fieldToRef (nodeId : Nat) (field : Field) : Option FieldRef :=
  match field.kind with
  | .bytes _ => none
  | .bits storageSize bitOffset width order =>
      some
        { nodeId := nodeId % 2 ^ 16
          offset := field.offset % 2 ^ 16
          byteWidth := storageSize % 2 ^ 8
          bigEndian := order == .big
          isBitfield := true
          bitOffset := bitOffset % 2 ^ 8
          bitWidth := width % 2 ^ 8 }
  | .scalar size _ order =>
      some
        { nodeId := nodeId % 2 ^ 16
          offset := field.offset % 2 ^ 16
          byteWidth := size % 2 ^ 8
          bigEndian := order == .big
          isBitfield := false
          bitOffset := 0
          bitWidth := 0 }

/-! ### The catalog -/

structure CatalogEntry where
  node : String
  field : String
  ref : FieldRef
deriving DecidableEq, Repr

def addNodeCatalog (names : List String) (node : L2L3Node) (i : Nat) : List CatalogEntry :=
  node.spec.filterMap fun field =>
    (fieldToRef i field).map fun ref => ⟨names.getD i "", field.name, ref⟩

def buildFieldCatalog (names : List String) : List CatalogEntry :=
  nodes.zipIdx.flatMap fun (node, i) => addNodeCatalog names node i

def buildL2l3Catalog : List CatalogEntry := buildFieldCatalog kL2L3NodeNames

def findField (cat : List CatalogEntry) (node field : Text) : Option CatalogEntry :=
  cat.find? fun e => e.node.toList == cStr node && e.field.toList == cStr field

/-- The id of the first catalogued field of the node; `none` for -1. -/
def anchorNodeId (cat : List CatalogEntry) (node : String) : Option Nat :=
  (cat.find? fun e => e.node == node).map fun e => e.ref.nodeId

/-! ### References say what specs say -/

/-- `ref` is a field of `node`: nothing was lost in narrowing it. -/
def RefersTo (ref : FieldRef) (node : L2L3Node) (field : Field) : Prop :=
  field ∈ node.spec ∧ ref.nodeId = nodeId node ∧ ref.offset = field.offset ∧
    match field.kind with
    | .bytes _ => False
    | .bits storageSize bitOffset width order =>
        ref.isBitfield = true ∧ ref.byteWidth = storageSize ∧ ref.bitOffset = bitOffset ∧
          ref.bitWidth = width ∧ ref.bigEndian = (order == .big)
    | .scalar size _ order =>
        ref.isBitfield = false ∧ ref.byteWidth = size ∧ ref.bigEndian = (order == .big)

/-- The fields of the graph fit the widths of a reference, and a `uint64_t`. -/
def narrowable (field : Field) : Bool :=
  decide (field.offset < 2 ^ 16) &&
    match field.kind with
    | .bytes _ => true
    | .bits storageSize bitOffset width _ =>
        decide (storageSize ≤ 8 ∧ bitOffset + width ≤ storageSize * 8 ∧ width < 64)
    | .scalar size _ _ => decide (size ≤ 8)

theorem narrowable_of_mem {node : L2L3Node} {field : Field} (member : field ∈ node.spec) :
    narrowable field = true := by
  have all : node.spec.all narrowable = true := by cases node <;> decide
  exact List.all_eq_true.mp all field member

theorem refersTo_of_fieldToRef {node : L2L3Node} {field : Field} {ref : FieldRef}
    (member : field ∈ node.spec) (made : fieldToRef (nodeId node) field = some ref) :
    RefersTo ref node field := by
  have fits := narrowable_of_mem member
  have id : nodeId node % 2 ^ 16 = nodeId node :=
    Nat.mod_eq_of_lt (Nat.lt_trans (nodeId_lt node) (by decide))
  refine ⟨member, ?_⟩
  rw [narrowable, Bool.and_eq_true, decide_eq_true_eq] at fits
  rw [fieldToRef] at made
  cases kind : field.kind with
  | bytes count =>
      rw [kind] at made
      contradiction
  | bits storageSize bitOffset width order =>
      simp only [kind, decide_eq_true_eq] at made fits
      cases made
      exact ⟨id, Nat.mod_eq_of_lt fits.1, rfl, Nat.mod_eq_of_lt (by omega),
        Nat.mod_eq_of_lt (by omega), Nat.mod_eq_of_lt (by omega), rfl⟩
  | scalar size signed order =>
      simp only [kind, decide_eq_true_eq] at made fits
      cases made
      exact ⟨id, Nat.mod_eq_of_lt fits.1, rfl, Nat.mod_eq_of_lt (by omega), rfl⟩

/-- The catalog holds the fields of every node that have a reference. -/
theorem mem_buildL2l3Catalog {e : CatalogEntry} :
    e ∈ buildL2l3Catalog ↔ ∃ node : L2L3Node, ∃ field ∈ node.spec,
      fieldToRef (nodeId node) field = some e.ref ∧
        e.node = kL2L3NodeNames.getD (nodeId node) "" ∧ e.field = field.name := by
  rw [buildL2l3Catalog, buildFieldCatalog, List.mem_flatMap]
  constructor
  · rintro ⟨⟨node, i⟩, indexed, member⟩
    have id : i = nodeId node := eq_nodeId (List.mem_zipIdx_iff_getElem?.mp indexed)
    subst id
    rcases List.mem_filterMap.mp member with ⟨field, inSpec, made⟩
    rcases Option.map_eq_some_iff.mp made with ⟨ref, found, rfl⟩
    exact ⟨node, field, inSpec, found, rfl, rfl⟩
  · rintro ⟨node, field, inSpec, found, nodeName, fieldName⟩
    refine ⟨(node, nodeId node),
      List.mem_zipIdx_iff_getElem?.mpr (getElem?_nodes_nodeId node), ?_⟩
    refine List.mem_filterMap.mpr ⟨field, inSpec, ?_⟩
    rw [found, ← nodeName, ← fieldName]
    rfl

/-- An entry of the catalog refers to the field it is named after. -/
theorem refersTo_of_mem_catalog {e : CatalogEntry} (member : e ∈ buildL2l3Catalog) :
    ∃ node field, RefersTo e.ref node field := by
  rcases mem_buildL2l3Catalog.mp member with ⟨node, field, inSpec, made, -, -⟩
  exact ⟨node, field, refersTo_of_fieldToRef inSpec made⟩

/-! ### Names -/

/-- The characters that names of nodes and fields are made of. -/
def nameChar (c : Char) : Bool :=
  decide ('a' ≤ c ∧ c ≤ 'z') || decide ('0' ≤ c ∧ c ≤ '9') || c == '_'

theorem nameChar_of_nodeName (i : Nat) : ∀ c ∈ (kL2L3NodeNames.getD i "").toList, nameChar c = true := by
  have all : kL2L3NodeNames.all (fun name => name.toList.all nameChar) = true := by decide +kernel
  rw [List.getD_eq_getElem?_getD]
  cases found : kL2L3NodeNames[i]? with
  | none => exact List.forall_mem_nil _
  | some name => exact List.all_eq_true.mp (List.all_eq_true.mp all name (List.mem_of_getElem? found))

theorem nameChar_of_fieldName {node : L2L3Node} {field : Field} (member : field ∈ node.spec) :
    ∀ c ∈ field.name.toList, nameChar c = true := by
  have all : node.spec.all (fun field => field.name.toList.all nameChar) = true := by
    cases node <;> decide +kernel
  exact List.all_eq_true.mp (List.all_eq_true.mp all field member)

theorem nameChar_of_mem_catalog {e : CatalogEntry} (member : e ∈ buildL2l3Catalog) :
    (∀ c ∈ e.node.toList, nameChar c = true) ∧ ∀ c ∈ e.field.toList, nameChar c = true := by
  rcases mem_buildL2l3Catalog.mp member with ⟨node, field, inSpec, -, nodeName, fieldName⟩
  rw [nodeName, fieldName]
  exact ⟨nameChar_of_nodeName _, nameChar_of_fieldName inSpec⟩

theorem cStr_of_nameChar {text : Text} (name : ∀ c ∈ text, nameChar c = true) :
    cStr text = text := by
  apply List.takeWhile_eq_self_iff.mpr
  intro c member
  have char := name c member
  by_contra nul
  obtain rfl : c = Char.ofNat 0 := by simpa using nul
  contradiction

/-- No two entries have the same names. -/
theorem nodup_names : (buildL2l3Catalog.map fun e => (e.node, e.field)).Nodup := by
  decide +kernel

/-- Every entry is found under its names. -/
theorem findField_of_mem {e : CatalogEntry} (member : e ∈ buildL2l3Catalog) :
    findField buildL2l3Catalog e.node.toList e.field.toList = some e := by
  rcases nameChar_of_mem_catalog member with ⟨node, field⟩
  rw [findField, cStr_of_nameChar node, cStr_of_nameChar field]
  have isSome : (buildL2l3Catalog.find? fun other =>
      other.node.toList == e.node.toList && other.field.toList == e.field.toList).isSome = true := by
    rw [List.find?_isSome]
    exact ⟨e, member, by simp⟩
  rcases Option.isSome_iff_exists.mp isSome with ⟨other, found⟩
  have same := List.find?_some found
  simp only [Bool.and_eq_true, beq_iff_eq, String.toList_inj] at same
  rw [found, List.inj_on_of_nodup_map nodup_names (List.mem_of_find?_eq_some found) member
    (Prod.ext same.1 same.2)]

namespace RefersTo

variable {ref : FieldRef} {node : L2L3Node} {field : Field} {pkt : Bytes} {lo hi base : Nat}

theorem extent (refers : RefersTo ref node field) :
    ref.offset + ref.byteWidth = field.endOffset := by
  rcases refers with ⟨-, -, offset, kind⟩
  rw [Field.endOffset, offset]
  split at kind
  · contradiction
  · next same =>
    rw [same, kind.2.1]
    rfl
  · next same =>
    rw [same, kind.2.1]
    rfl

theorem endOffset_le (refers : RefersTo ref node field) :
    ref.offset + ref.byteWidth ≤ specSize node.spec := by
  rw [refers.extent]
  exact endOffset_le_specSize refers.1

/-- The bits of a bit-field lie inside its storage unit. -/
theorem bits_le (refers : RefersTo ref node field) (isBitfield : ref.isBitfield = true) :
    ref.bitOffset + ref.bitWidth ≤ ref.byteWidth * 8 := by
  have fits := narrowable_of_mem refers.1
  rcases refers with ⟨-, -, -, kind⟩
  rw [narrowable, Bool.and_eq_true] at fits
  split at kind
  · contradiction
  · next same =>
    rcases kind with ⟨-, byteWidth, bitOffset, bitWidth, -⟩
    rw [same] at fits
    rw [byteWidth, bitOffset, bitWidth]
    exact (of_decide_eq_true fits.2).2.1
  · rw [kind.1] at isBitfield
    contradiction

end RefersTo

theorem readFieldRuntimeM_guarded (pkt : Bytes) (ref : FieldRef) {lo hi base : Nat}
    (above : lo ≤ base) (below : base + (ref.offset + ref.byteWidth) ≤ hi) :
    readFieldRuntimeM (guardedByte pkt lo hi) base ref = some (readFieldRuntime pkt base ref) := by
  rw [readFieldRuntime, readFieldRuntimeM, readFieldRuntimeM,
    readScalarM_guarded _ (by omega) (by omega)]
  exact (apply_ite some _ _ _).symm

theorem readScalar_mod (pkt : Bytes) (order : WireEndian) (off : Nat) {n : Nat} (narrow : n ≤ 8) :
    Id.run (readScalarM (byteAt pkt) order off n) % 2 ^ 64 =
      Id.run (readScalarM (byteAt pkt) order off n) := by
  have bound : Id.run (readScalarM (byteAt pkt) order off n) < 256 ^ n := by
    cases order with
    | big => exact readBig_lt pkt off n
    | little => exact readLittle_lt pkt off n
  exact Nat.mod_eq_of_lt
    (Nat.lt_of_lt_of_le bound (Nat.pow_le_pow_right (by decide) narrow : 256 ^ n ≤ 256 ^ 8))

theorem orderOf_bigEndian (order : WireEndian) :
    (if (order == .big) = true then WireEndian.big else .little) = order := by
  cases order <;> rfl

/-- The runtime reader reads the unsigned word of the field. -/
theorem readFieldRuntime_eq {pkt : Bytes} {base : Nat} {ref : FieldRef} {node : L2L3Node}
    {field : Field} (refers : RefersTo ref node field) :
    readFieldRuntime pkt base ref = readUint pkt base field := by
  have fits := narrowable_of_mem refers.1
  rcases refers with ⟨-, -, offset, same⟩
  rcases field with ⟨name, fieldOffset, kind⟩
  rw [narrowable, Bool.and_eq_true, decide_eq_true_eq] at fits
  rw [readFieldRuntime, readFieldRuntimeM, offset]
  cases kind with
  | bytes count => exact absurd same id
  | bits storageSize bitOffset width order =>
      rcases same with ⟨isBitfield, byteWidth, bitOffsetSame, bitWidth, bigEndian⟩
      simp only [decide_eq_true_eq] at fits
      have word := readScalar_mod pkt order (base + fieldOffset) (by omega : storageSize ≤ 8)
      have narrow : ¬ 64 ≤ width := by omega
      rw [isBitfield, byteWidth, bitOffsetSame, bitWidth, bigEndian, orderOf_bigEndian,
        if_neg narrow]
      show Id.run (readScalarM (byteAt pkt) order (base + fieldOffset) storageSize) % 2 ^ 64 /
        2 ^ (if (order == .big) = true then storageSize * 8 - width - bitOffset else bitOffset) %
          2 ^ width = bitsOfUnit storageSize bitOffset width order _
      rw [word]
      cases order <;> rfl
  | scalar size signed order =>
      rcases same with ⟨isBitfield, byteWidth, bigEndian⟩
      simp only [decide_eq_true_eq] at fits
      rw [isBitfield, byteWidth, bigEndian, orderOf_bigEndian]
      exact readScalar_mod pkt order _ fits.2

end Nanotins.Dpar
