import Mathlib.Algebra.GroupWithZero.Nat
import Nanotins.Wire.ProtocolSpecs

/-!
Contract: specs composed of leaf fields and of embedded specs, at any depth, and the
full-message PTP specs of `protocol_specs_ptp.hpp`.

Owns: the flattened fields of a composed spec as its leaves in depth-first order, the
extent of a composed spec, and that the PTP messages read as their header and their
body do (`embed_composes`).

Does not own: which messages a packet has.
-/

namespace Nanotins.Wire

open Nanotins.Library

/-- The elements of a `WireSpec`: leaf fields, and embedded specs with their prefix
and offset. -/
inductive Elems where
  | nil
  | leaf (field : Field) (more : Elems)
  | embed (tag : String) (offset : Nat) (sub more : Elems)

/-- A leaf and the prefixes and offsets above it, the outermost first. -/
structure Leaf where
  path : List (String × Nat)
  field : Field
deriving DecidableEq, Repr

namespace Elems

/-- The flattened leaf field list. -/
def fields : Elems → WireSpec
  | nil => []
  | leaf field more => field :: more.fields
  | embed tag offset sub more => Wire.embed tag offset sub.fields ++ more.fields

/-- The leaves, depth first. -/
def leaves : Elems → List Leaf
  | nil => []
  | leaf field more => ⟨[], field⟩ :: more.leaves
  | embed tag offset sub more =>
      sub.leaves.map (fun found => { found with path := (tag, offset) :: found.path }) ++
        more.leaves

/-- Where the own fields end, and where the embedded specs do. -/
def ends : Elems → List Nat
  | nil => []
  | leaf field more => field.endOffset :: more.ends
  | embed _ offset sub more => (offset + specSize sub.fields) :: more.ends

/-- No embedded spec, at any depth, is empty. -/
def SubsNonempty : Elems → Prop
  | nil => True
  | leaf _ more => more.SubsNonempty
  | embed _ _ sub more => sub ≠ nil ∧ sub.SubsNonempty ∧ more.SubsNonempty

/-- A spec of leaf fields only. -/
def ofFields : WireSpec → Elems
  | [] => nil
  | field :: fields => leaf field (ofFields fields)

@[simp] theorem fields_ofFields (spec : WireSpec) : (ofFields spec).fields = spec := by
  induction spec with
  | nil => rfl
  | cons field spec inductionHypothesis => exact congrArg (field :: ·) inductionHypothesis

end Elems

/-! ### Leaves -/

namespace Leaf

def offset (found : Leaf) : Nat := (found.path.map Prod.snd).sum

/-- The leaf's name behind the prefixes on its path. -/
def name (found : Leaf) : String :=
  (found.path.map Prod.fst).foldr (fun tag behind => tag ++ behind) found.field.name

/-- The field that the leaf is flattened to. -/
def flatten (found : Leaf) : Field :=
  ⟨found.name, found.offset + found.field.offset, found.field.kind⟩

end Leaf

/-- Flattening gives the leaves, depth first. -/
theorem Elems.fields_eq_leaves (tree : Elems) : tree.fields = tree.leaves.map Leaf.flatten := by
  induction tree with
  | nil => rfl
  | leaf field more inductionHypothesis =>
      have here : Leaf.flatten ⟨[], field⟩ = field := by
        unfold Leaf.flatten Leaf.offset
        rw [List.map_nil, List.sum_nil, Nat.zero_add]
        rfl
      rw [fields, leaves, List.map_cons, here, inductionHypothesis]
  | embed tag offset sub more subHypothesis moreHypothesis =>
      rw [fields, leaves, List.map_append, List.map_map, ← moreHypothesis, subHypothesis]
      unfold Wire.embed
      rw [List.map_map]
      congr 1
      apply List.map_congr_left
      intro found _
      dsimp only [Function.comp_apply, Leaf.flatten, Leaf.offset, Leaf.name]
      rw [List.map_cons, List.map_cons, List.sum_cons, Nat.add_assoc]
      rfl

/-! ### Reading -/

/-- Only the sum of base and offset counts. -/
theorem readField_shift (bytes : Bytes) (p shift offset : Nat) (name name' : String)
    (kind : FieldKind) :
    readField bytes p ⟨name, shift + offset, kind⟩ =
      readField bytes (p + shift) ⟨name', offset, kind⟩ := by
  unfold readField readFieldM readUintM
  dsimp only
  rw [Nat.add_assoc]

theorem readField_flatten (found : Leaf) (bytes : Bytes) (p : Nat) :
    readField bytes p found.flatten = readField bytes (p + found.offset) found.field :=
  readField_shift _ _ _ _ _ _ _

/-- Specs that place the same kinds at the same offsets read the same values. -/
theorem map_readField_congr {spec front back : WireSpec} {shift : Nat}
    (same : spec.map (fun field => (field.offset, field.kind)) =
      front.map (fun field => (field.offset, field.kind)) ++
        back.map fun field => (shift + field.offset, field.kind)) (bytes : Bytes) (p : Nat) :
    spec.map (readField bytes p) =
      front.map (readField bytes p) ++ back.map (readField bytes (p + shift)) := by
  have read : ∀ field : Field, readField bytes p field =
      (fun placed : Nat × FieldKind => readField bytes p ⟨"", placed.1, placed.2⟩)
        (field.offset, field.kind) := fun field => rfl
  have later : ∀ field : Field, readField bytes (p + shift) field =
      (fun placed : Nat × FieldKind => readField bytes p ⟨"", placed.1, placed.2⟩)
        (shift + field.offset, field.kind) :=
    fun field => (readField_shift bytes p shift field.offset "" field.name field.kind).symm
  rw [List.map_congr_left fun field _ => read field,
    List.map_congr_left fun field _ => read field,
    List.map_congr_left fun field _ => later field]
  have mapped := congrArg
    (List.map fun placed : Nat × FieldKind => readField bytes p ⟨"", placed.1, placed.2⟩) same
  rw [List.map_map, List.map_append, List.map_map, List.map_map] at mapped
  exact mapped

/-! ### Extent -/

theorem specSize_eq_foldr (spec : WireSpec) :
    specSize spec = (spec.map Field.endOffset).foldr max 0 := by
  have start : ∀ mx, spec.foldl
      (fun mx field => if mx < field.endOffset then field.endOffset else mx) mx =
        max mx ((spec.map Field.endOffset).foldr max 0) := by
    induction spec with
    | nil => exact fun mx => (Nat.max_zero mx).symm
    | cons field spec inductionHypothesis =>
        intro mx
        rw [List.foldl_cons, inductionHypothesis, List.map_cons, List.foldr_cons]
        split <;> omega
  rw [specSize, start, Nat.zero_max]

theorem specSize_append (front back : WireSpec) :
    specSize (front ++ back) = max (specSize front) (specSize back) := by
  simp only [specSize_eq_foldr, List.map_append, List.foldr_append]
  induction front with
  | nil => exact (Nat.zero_max _).symm
  | cons field front inductionHypothesis =>
      simp only [List.map_cons, List.foldr_cons, inductionHypothesis]
      omega

/-- An embedded spec that is not empty ends behind its offset. -/
theorem specSize_embed (tag : String) (offset : Nat) {sub : WireSpec} (nonempty : sub ≠ []) :
    specSize (embed tag offset sub) = offset + specSize sub := by
  simp only [specSize_eq_foldr, embed, List.map_map]
  induction sub with
  | nil => contradiction
  | cons field sub inductionHypothesis =>
      have here : Field.endOffset ⟨tag ++ field.name, offset + field.offset, field.kind⟩ =
          offset + field.endOffset := Nat.add_assoc _ _ _
      simp only [List.map_cons, List.foldr_cons, Function.comp_apply, here]
      cases sub with
      | nil => simp
      | cons next sub =>
          rw [inductionHypothesis (List.cons_ne_nil _ _)]
          omega

namespace Elems

theorem fields_ne_nil {tree : Elems} (nonempty : tree ≠ nil) (subs : tree.SubsNonempty) :
    tree.fields ≠ [] := by
  induction tree with
  | nil => contradiction
  | leaf field more _ => exact List.cons_ne_nil _ _
  | embed tag offset sub more subHypothesis _ =>
      obtain ⟨inside, subs, -⟩ := subs
      have found := subHypothesis inside subs
      intro empty
      obtain ⟨none, -⟩ := List.append_eq_nil_iff.mp empty
      exact found (List.map_eq_nil_iff.mp none)

/-- The extent is the largest end of the own fields and of the embedded specs. -/
theorem specSize_fields {tree : Elems} (subs : tree.SubsNonempty) :
    specSize tree.fields = tree.ends.foldr max 0 := by
  induction tree with
  | nil => rfl
  | leaf field more inductionHypothesis =>
      rw [fields, ends, List.foldr_cons, ← inductionHypothesis subs]
      have parts := specSize_append [field] more.fields
      rw [List.singleton_append] at parts
      rw [parts, specSize_eq_foldr [field]]
      simp
  | embed tag offset sub more _ moreHypothesis =>
      obtain ⟨inside, subs, later⟩ := subs
      rw [fields, ends, List.foldr_cons, ← moreHypothesis later, specSize_append,
        specSize_embed tag offset (fields_ne_nil inside subs)]

end Elems

/-! ### The full PTP messages -/

/-- `_PtpHdr`, in front of a body. -/
def ptpHdr (body : Elems) : Elems := .embed "" 0 (.ofFields PtpHeaderSpec.fields) body

def SyncMsgSpec : Elems := ptpHdr <| .embed "origin_" 34 (.ofFields TimestampSpec.fields) .nil

def FollowUpMsgSpec : Elems :=
  ptpHdr <| .embed "precise_origin_" 34 (.ofFields TimestampSpec.fields) .nil

def DelayReqMsgSpec : Elems := ptpHdr <| .embed "origin_" 34 (.ofFields TimestampSpec.fields) .nil

def DelayRespMsgSpec : Elems :=
  ptpHdr <| .embed "receive_" 34 (.ofFields TimestampSpec.fields) <|
    .embed "requesting_" 44 (.ofFields PortIdentitySpec.fields) .nil

def AnnounceMsgSpec : Elems :=
  ptpHdr <| .embed "origin_" 34 (.ofFields TimestampSpec.fields) <|
    .leaf (intField "current_utc_offset" 44 2) <| .leaf (uintField "grandmaster_priority1" 47 1) <|
    .embed "grandmaster_" 48 (.ofFields ClockQualitySpec.fields) <|
    .leaf (uintField "grandmaster_priority2" 52 1) <|
    .leaf (bytesField "grandmaster_identity" 53 8) <|
    .leaf (uintField "steps_removed" 61 2) <| .leaf (uintField "time_source" 63 1) .nil

/-- The messages and the specs of their bodies. -/
def ptpMessages : List (Elems × WireSpec) :=
  [(SyncMsgSpec, PtpTimestampBodySpec.fields), (FollowUpMsgSpec, PtpTimestampBodySpec.fields),
    (DelayReqMsgSpec, PtpTimestampBodySpec.fields), (DelayRespMsgSpec, PtpTsPortBodySpec.fields),
    (AnnounceMsgSpec, PtpAnnounceBodySpec.fields)]

theorem ptpMessages_placed :
    ∀ message ∈ ptpMessages, message.1.fields.map (fun field => (field.offset, field.kind)) =
      PtpHeaderSpec.fields.map (fun field => (field.offset, field.kind)) ++
        message.2.map fun field => (kPtpHeaderLen + field.offset, field.kind) := by
  decide

/-- Composed specs are flattened to their leaves, which are read at the sum of the
offsets above them and named by the prefixes above them; the extent of a composed
spec is the largest end of its parts; and the full PTP messages read what the header
spec and the body spec behind it do. -/
theorem embed_composes :
    (∀ tree : Elems, tree.fields = tree.leaves.map Leaf.flatten) ∧
    (∀ found : Leaf,
      found.flatten.name = (found.path.map Prod.fst).foldr (· ++ ·) found.field.name ∧
      ∀ (bytes : Bytes) (p : Nat), readField bytes p found.flatten =
        readField bytes (p + (found.path.map Prod.snd).sum) found.field) ∧
    (∀ tree : Elems, tree.SubsNonempty → specSize tree.fields = tree.ends.foldr max 0) ∧
    ∀ message ∈ ptpMessages, ∀ (bytes : Bytes) (p : Nat),
      message.1.fields.map (readField bytes p) =
        PtpHeaderSpec.fields.map (readField bytes p) ++
          message.2.map (readField bytes (p + kPtpHeaderLen)) := by
  refine ⟨Elems.fields_eq_leaves, ?_, fun tree => Elems.specSize_fields, ?_⟩
  · intro found
    exact ⟨rfl, readField_flatten found⟩
  · intro message member
    exact map_readField_congr (ptpMessages_placed message member)

theorem embed_composes_delayResp :
    DelayRespMsgSpec.fields = DelayRespMsgSpec.leaves.map Leaf.flatten ∧
      specSize DelayRespMsgSpec.fields = DelayRespMsgSpec.ends.foldr max 0 ∧
      DelayRespMsgSpec.fields.map (readField [0x19, 0x02, 0x00, 0x36] 0) =
        PtpHeaderSpec.fields.map (readField [0x19, 0x02, 0x00, 0x36] 0) ++
          PtpTsPortBodySpec.fields.map (readField [0x19, 0x02, 0x00, 0x36] (0 + kPtpHeaderLen)) :=
  have nonempty : DelayRespMsgSpec.SubsNonempty := by
    simp [DelayRespMsgSpec, ptpHdr, Elems.SubsNonempty, Elems.ofFields, PtpHeaderSpec.fields,
      TimestampSpec.fields, PortIdentitySpec.fields]
  ⟨embed_composes.1 DelayRespMsgSpec, embed_composes.2.2.1 DelayRespMsgSpec nonempty,
    embed_composes.2.2.2 (DelayRespMsgSpec, PtpTsPortBodySpec.fields)
      (.tail _ (.tail _ (.tail _ (.head _)))) _ 0⟩

end Nanotins.Wire
