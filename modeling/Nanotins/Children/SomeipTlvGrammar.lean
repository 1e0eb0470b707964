import Mathlib.Algebra.GroupWithZero.Nat
import Nanotins.Children.SomeipTlv
import Nanotins.Library.ByteWriter
import Nanotins.Library.RecordStream

/-!
Contract: the member grammar that `someip_tlv_cursor` decodes.

Owns: members as they are written, that the cursor reads a region exactly by
their grammar (`SomeipTlvCursor.readBy`), and where each member stands.

Does not own: which payloads are TLV-serialized, or the rows made of members.
-/

namespace Nanotins.Children

open Nanotins.Library

/-! ### Members as they are written -/

/-- A member and its value. -/
structure SomeipTlvItem where
  dataId : Nat
  wireType : Nat
  value : Bytes
deriving DecidableEq, Repr

/-- The width of the length field of a wire type. -/
def lengthWidth (wireType : Nat) : Nat :=
  match wireType with
  | 5 => 1
  | 6 => 2
  | 7 => 4
  | _ => 0

namespace SomeipTlvItem

/-- Wire type 4 has no width of its own and is no member of this grammar. -/
def Legal (item : SomeipTlvItem) : Prop :=
  item.dataId < 2 ^ 12 ∧
    match item.wireType with
    | 0 => item.value.length = 1
    | 1 => item.value.length = 2
    | 2 => item.value.length = 4
    | 3 => item.value.length = 8
    | 5 => item.value.length < 2 ^ 8
    | 6 => item.value.length < 2 ^ 16
    | 7 => item.value.length < 2 ^ 32
    | _ => False

/-- The tag, whose top bit is reserved, the length field and the value. -/
def encode (reserved : Bool) (item : SomeipTlvItem) : Bytes :=
  bigBytes 2 (reserved.toNat * 2 ^ 15 + item.wireType * 2 ^ 12 + item.dataId) ++
    (bigBytes (lengthWidth item.wireType) item.value.length ++ item.value)

/-- The bytes in front of the value. -/
def header (item : SomeipTlvItem) : Nat := 2 + lengthWidth item.wireType

theorem length_encode (reserved : Bool) (item : SomeipTlvItem) :
    (item.encode reserved).length = item.header + item.value.length := by
  simp only [encode, header, List.length_append, length_bigBytes]
  omega

theorem Legal.wireType_lt {item : SomeipTlvItem} (legal : item.Legal) : item.wireType < 8 := by
  obtain ⟨-, width⟩ := legal
  split at width <;> first | exact width.elim | omega

end SomeipTlvItem

/-- The member that the cursor reports, with the bytes its value points to. -/
def SomeipTlvRecord.item (pkt : Bytes) (record : SomeipTlvRecord) : SomeipTlvItem :=
  ⟨record.dataId, record.wireType,
    record.value.elim [] fun value => readBytes pkt value record.length⟩

/-- The bytes that a cursor has before it. -/
def SomeipTlvCursor.region (pkt : Bytes) (cursor : SomeipTlvCursor) : Bytes :=
  readBytes pkt cursor.p (cursor.stop - cursor.p)

def someipTlvGrammar : RecordGrammar SomeipTlvItem UInt8 where
  Record item text := item.Legal ∧ ∃ reserved, text = item.encode reserved
  Closing _ _ := False
  record_ne_nil := by
    intro item text record empty
    obtain ⟨-, reserved, rfl⟩ := record
    have length := congrArg List.length empty
    rw [SomeipTlvItem.length_encode, SomeipTlvItem.header, List.length_nil] at length
    omega
  closing_ne_nil closing := closing.elim

/-! ### The cursor reads by the grammar -/

namespace SomeipTlvCursor

variable {pkt : Bytes} {cursor behind : SomeipTlvCursor} {record : SomeipTlvRecord}

/-- What the wire type and the length field behind it say about a length. -/
def LengthIs (pkt : Bytes) (wt q len : Nat) : Prop :=
  match wt with
  | 0 => len = 1
  | 1 => len = 2
  | 2 => len = 4
  | 3 => len = 8
  | 5 | 6 | 7 => len = readBig pkt q (lengthWidth wt)
  | _ => False

theorem length_eq_some_iff {wt q len start : Nat} :
    cursor.length pkt wt q = some (len, start) ↔
      LengthIs pkt wt q len ∧ start = q + lengthWidth wt ∧
        (lengthWidth wt = 0 ∨ q + lengthWidth wt ≤ cursor.stop) := by
  rw [length_eq]
  unfold LengthIs lengthWidth
  split <;> simp <;> omega

/-- The wire type of the tag at `p`. -/
def wireTypeAt (pkt : Bytes) (p : Nat) : Nat := readBig pkt p 2 / 2 ^ 12 % 8

/-- A member is taken if its length is known and it fits. -/
theorem next_eq_some_iff :
    cursor.next pkt = some (record, behind) ↔
      ∃ len, LengthIs pkt (wireTypeAt pkt cursor.p) (cursor.p + 2) len ∧
        cursor.p + 2 + lengthWidth (wireTypeAt pkt cursor.p) + len ≤ cursor.stop ∧
        record = ⟨readBig pkt cursor.p 2 % 2 ^ 12, wireTypeAt pkt cursor.p, len,
          if len = 0 then none
          else some (cursor.p + 2 + lengthWidth (wireTypeAt pkt cursor.p))⟩ ∧
        behind = { cursor with
          p := cursor.p + 2 + lengthWidth (wireTypeAt pkt cursor.p) + len } := by
  rw [next_eq, ← wireTypeAt]
  constructor
  · intro taken
    split at taken
    · contradiction
    split at taken
    · contradiction
    · next len start found =>
      obtain ⟨known, rfl, -⟩ := length_eq_some_iff.mp found
      split at taken
      · contradiction
      · next fits =>
        cases taken
        exact ⟨len, known, Nat.not_lt.mp fits, rfl, rfl⟩
  · intro member
    obtain ⟨len, known, fits, rfl, rfl⟩ := member
    have found : cursor.length pkt (wireTypeAt pkt cursor.p) (cursor.p + 2) =
        some (len, cursor.p + 2 + lengthWidth (wireTypeAt pkt cursor.p)) :=
      length_eq_some_iff.mpr ⟨known, rfl, .inr (by omega)⟩
    rw [if_neg (by omega), found]
    exact if_neg (Nat.not_lt.mpr fits)

/-! Lengths, as read and as written -/

theorem legal_of_lengthIs {wt q len dataId : Nat} {value : Bytes} (known : LengthIs pkt wt q len)
    (sized : value.length = len) (small : dataId < 2 ^ 12) :
    SomeipTlvItem.Legal ⟨dataId, wt, value⟩ := by
  refine ⟨small, ?_⟩
  unfold LengthIs at known
  dsimp only
  rw [sized]
  split at known
  · exact known
  · exact known
  · exact known
  · exact known
  · rw [known]
    exact readBig_lt pkt q 1
  · rw [known]
    exact readBig_lt pkt q 2
  · rw [known]
    exact readBig_lt pkt q 4
  · exact known.elim

theorem readBytes_of_lengthIs {wt q len : Nat} (known : LengthIs pkt wt q len) :
    readBytes pkt q (lengthWidth wt) = bigBytes (lengthWidth wt) len := by
  unfold LengthIs at known
  split at known <;> first
    | exact known.elim
    | rfl
    | rw [known, bigBytes_readBig]

theorem lengthIs_of_readBytes {wt q dataId : Nat} {value : Bytes}
    (legal : SomeipTlvItem.Legal ⟨dataId, wt, value⟩)
    (same : readBytes pkt q (lengthWidth wt) = bigBytes (lengthWidth wt) value.length) :
    LengthIs pkt wt q value.length := by
  have word := readBig_of_readBytes same
  obtain ⟨-, width⟩ := legal
  dsimp only at width
  unfold LengthIs
  split at width
  · exact width
  · exact width
  · exact width
  · exact width
  · exact (word.trans (Nat.mod_eq_of_lt width)).symm
  · exact (word.trans (Nat.mod_eq_of_lt width)).symm
  · exact (word.trans (Nat.mod_eq_of_lt width)).symm
  · exact width.elim

/-- The parts of a member in the bytes before the cursor. -/
theorem region_member {width len : Nat} (inside : cursor.p + 2 + width + len ≤ cursor.stop) :
    cursor.region pkt =
      (readBytes pkt cursor.p 2 ++ (readBytes pkt (cursor.p + 2) width ++
        readBytes pkt (cursor.p + 2 + width) len)) ++
          region pkt { cursor with p := cursor.p + 2 + width + len } := by
  obtain ⟨rest, stop⟩ := Nat.exists_eq_add_of_le inside
  rw [region, region, stop, ← readBytes_add, ← readBytes_add,
    (by omega : cursor.p + 2 + width + len = cursor.p + (2 + (width + len))), ← readBytes_add]
  congr 1
  dsimp only
  omega

theorem item_of_pointer (dataId wt len q : Nat) :
    SomeipTlvRecord.item pkt ⟨dataId, wt, len, if len = 0 then none else some q⟩ =
      ⟨dataId, wt, readBytes pkt q len⟩ := by
  rw [SomeipTlvRecord.item]
  dsimp only
  split
  · next empty =>
    rw [empty]
    rfl
  · rfl

/-- A member that is taken is one of the grammar. -/
theorem sound_of_next (taken : cursor.next pkt = some (record, behind)) :
    (record.item pkt).Legal ∧
      ∃ reserved, cursor.region pkt = (record.item pkt).encode reserved ++ behind.region pkt := by
  obtain ⟨len, known, fits, rfl, rfl⟩ := next_eq_some_iff.mp taken
  rw [item_of_pointer]
  refine ⟨legal_of_lengthIs known (length_readBytes _ _ _) (Nat.mod_lt _ (by decide)),
    decide (readBig pkt cursor.p 2 / 2 ^ 15 = 1), ?_⟩
  have bound : readBig pkt cursor.p 2 < 2 ^ 16 := readBig_lt pkt cursor.p 2
  have tag : (decide (readBig pkt cursor.p 2 / 2 ^ 15 = 1)).toNat * 2 ^ 15 +
      wireTypeAt pkt cursor.p * 2 ^ 12 + readBig pkt cursor.p 2 % 2 ^ 12 =
        readBig pkt cursor.p 2 := by
    by_cases top : readBig pkt cursor.p 2 / 2 ^ 15 = 1
    · rw [decide_eq_true top, Bool.toNat_true, wireTypeAt]
      omega
    · rw [decide_eq_false top, Bool.toNat_false, wireTypeAt]
      omega
  rw [region_member fits, SomeipTlvItem.encode, tag, bigBytes_readBig, length_readBytes,
    readBytes_of_lengthIs known]

/-- A member of the grammar is taken. -/
theorem next_of_member {item : SomeipTlvItem} {reserved : Bool} {more : Bytes}
    (legal : item.Legal) (stands : cursor.region pkt = item.encode reserved ++ more) :
    ∃ record behind, cursor.next pkt = some (record, behind) ∧ record.item pkt = item ∧
      behind.region pkt = more := by
  obtain ⟨dataId, wt, value⟩ := item
  have small : dataId < 2 ^ 12 := legal.1
  have wt_lt : wt < 8 := legal.wireType_lt
  rw [SomeipTlvItem.encode, List.append_assoc, List.append_assoc] at stands
  obtain ⟨tagInside, tagRead, behindTag⟩ := readBytes_eq_append stands
  rw [length_bigBytes] at tagInside tagRead behindTag
  obtain ⟨widthInside, widthRead, behindWidth⟩ := readBytes_eq_append behindTag
  rw [length_bigBytes] at widthInside widthRead behindWidth
  obtain ⟨valueInside, valueRead, rest⟩ := readBytes_eq_append behindWidth
  dsimp only at *
  have tag := readBig_of_readBytes tagRead
  have known := lengthIs_of_readBytes legal widthRead
  have top := Bool.toNat_le reserved
  rw [Nat.mod_eq_of_lt (by omega)] at tag
  have wireType : wireTypeAt pkt cursor.p = wt := by
    rw [wireTypeAt, tag]
    omega
  refine ⟨_, _, next_eq_some_iff.mpr ⟨value.length, ?_, ?_, rfl, rfl⟩, ?_, ?_⟩
  · rw [wireType]
    exact known
  · rw [wireType]
    omega
  · rw [item_of_pointer, wireType, tag, valueRead]
    congr 1
    omega
  · rw [region, ← rest, wireType]
    congr 1
    dsimp only
    omega

theorem readBy (pkt : Bytes) :
    someipTlvGrammar.ReadBy (fun _ => True) (next pkt) (SomeipTlvRecord.item pkt)
      (region pkt) where
  preserved _ _ := trivial
  sound _ taken := by
    obtain ⟨legal, reserved, split⟩ := sound_of_next taken
    exact .inl ⟨_, ⟨legal, reserved, rfl⟩, split⟩
  record := by
    intro cursor item text more _ record split
    obtain ⟨legal, reserved, rfl⟩ := record
    exact next_of_member legal split
  closing _ closing := closing.elim

/-- The bounded loop takes the members of the unbounded one. -/
theorem records_of_walk {records : List SomeipTlvRecord} {final : SomeipTlvCursor}
    (walk : Walk (next pkt) cursor records final) : cursor.records pkt = records := by
  apply walk.drain_eq
  have few := (readBy pkt).length_le walk trivial
  rwa [region, length_readBytes] at few

/-- The value of a member, if it has one, lies in the region. -/
def ValueInside (cursor : SomeipTlvCursor) (record : SomeipTlvRecord) : Prop :=
  ∀ value, record.value = some value →
    cursor.p ≤ value ∧ value + record.length ≤ cursor.stop

theorem valueInside_of_walk {records : List SomeipTlvRecord} {final : SomeipTlvCursor}
    (walk : Walk (next pkt) cursor records final) :
    ∀ record ∈ records, cursor.ValueInside record := by
  refine (walk.forall_mem (fun state => cursor.p ≤ state.p ∧ state.stop = cursor.stop) _ ?_
    ⟨Nat.le_refl _, rfl⟩).1
  intro state behind record inside taken
  obtain ⟨forward, fits, stop, extent⟩ := next_some taken
  refine ⟨?_, by omega, by omega⟩
  intro value here
  have := extent value here
  omega

/-- No member stands at the front: nothing is left, or the tag has wire type 4, or
what stands there does not fit. -/
def NoMember (left : Bytes) : Prop :=
  ∀ (reserved : Bool) (item : SomeipTlvItem) (more : Bytes), item.Legal →
    left ≠ item.encode reserved ++ more

theorem noMember_of_stuck {left : Bytes} (stuck : someipTlvGrammar.Stuck left) : NoMember left := by
  intro reserved item more legal split
  exact (stuck item _ more split).1 ⟨legal, reserved, rfl⟩

end SomeipTlvCursor

theorem encodes_someipTlvGrammar_iff (items : List SomeipTlvItem) (text : Bytes) :
    someipTlvGrammar.Encodes items text ↔
      ∃ marked : List (Bool × SomeipTlvItem), marked.map Prod.snd = items ∧
        (∀ item ∈ marked, item.2.Legal) ∧
        text = marked.flatMap fun item => item.2.encode item.1 :=
  RecordGrammar.encodes_marked_iff (fun _ _ => Iff.rfl) items text

/-! ### Where the members stand -/

/-- The bytes in front of the value. -/
def SomeipTlvRecord.header (record : SomeipTlvRecord) : Nat := 2 + lengthWidth record.wireType

/-- The members stand one behind the other from `p` on, and end at `stop`; a member
has a value exactly when its length is not 0. -/
def Contiguous (stop : Nat) : Nat → List SomeipTlvRecord → Prop
  | p, [] => p = stop
  | p, record :: records =>
      record.value = (if record.length = 0 then none else some (p + record.header)) ∧
        Contiguous stop (p + record.header + record.length) records

section Contiguous

variable {pkt : Bytes} {cursor final : SomeipTlvCursor} {records : List SomeipTlvRecord}

theorem contiguous_of_walk (walk : Walk (SomeipTlvCursor.next pkt) cursor records final) :
    Contiguous final.p cursor.p records := by
  induction walk with
  | stop ended => rfl
  | step taken continued inductionHypothesis =>
      obtain ⟨len, -, -, rfl, rfl⟩ := SomeipTlvCursor.next_eq_some_iff.mp taken
      rw [Contiguous, SomeipTlvRecord.header, ← Nat.add_assoc]
      exact ⟨rfl, inductionHypothesis⟩

/-- The member number `k` stands behind those before it. -/
theorem Contiguous.value_eq {stop p k : Nat} {record : SomeipTlvRecord}
    (contiguous : Contiguous stop p records) (found : records[k]? = some record) :
    record.value = if record.length = 0 then none else
      some (p + ((records.take k).map fun record => record.header + record.length).sum +
        record.header) := by
  induction records generalizing p k with
  | nil => contradiction
  | cons first records inductionHypothesis =>
      obtain ⟨here, behind⟩ := contiguous
      cases k with
      | zero =>
          cases found
          exact here
      | succ k =>
          rw [inductionHypothesis behind found, List.take_succ_cons, List.map_cons, List.sum_cons,
            ← Nat.add_assoc, ← Nat.add_assoc]

/-- The value of a member is as long as the member says. -/
theorem Contiguous.length_value (pkt : Bytes) {stop p : Nat} {record : SomeipTlvRecord}
    (contiguous : Contiguous stop p records) (member : record ∈ records) :
    (record.item pkt).value.length = record.length := by
  obtain ⟨k, found⟩ := List.mem_iff_getElem?.mp member
  rw [SomeipTlvRecord.item, contiguous.value_eq found]
  dsimp only
  split
  · next empty => exact empty.symm
  · exact length_readBytes _ _ _

theorem Contiguous.value_eq_nil_iff (pkt : Bytes) {stop p : Nat} {record : SomeipTlvRecord}
    (contiguous : Contiguous stop p records) (member : record ∈ records) :
    (record.item pkt).value = [] ↔ record.length = 0 := by
  rw [← contiguous.length_value pkt member]
  exact List.length_eq_zero_iff.symm

theorem Contiguous.sum_sizes (pkt : Bytes) {stop p : Nat} (contiguous : Contiguous stop p records)
    (k : Nat) :
    ((records.take k).map fun record => record.header + record.length).sum =
      (((records.map (SomeipTlvRecord.item pkt)).take k).map
        fun item => item.header + item.value.length).sum := by
  rw [← List.map_take, List.map_map]
  congr 1
  apply List.map_congr_left
  intro record member
  exact congrArg (record.header + ·)
    (contiguous.length_value pkt (List.mem_of_mem_take member)).symm

end Contiguous

theorem length_flatMap_encode (marked : List (Bool × SomeipTlvItem)) :
    (marked.flatMap fun item => item.2.encode item.1).length =
      ((marked.map Prod.snd).map fun item => item.header + item.value.length).sum := by
  rw [List.length_flatMap, List.map_map]
  congr 2
  funext item
  exact SomeipTlvItem.length_encode item.1 item.2

end Nanotins.Children
