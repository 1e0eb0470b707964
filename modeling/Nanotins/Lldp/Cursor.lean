import Mathlib.Algebra.GroupWithZero.Nat
import Nanotins.Library.ByteWriter
import Nanotins.Library.RecordStream

/-!
Contract: the TLV cursor of the LLDP example, and the TLVs it decodes.

Owns: `LldpCursor.nextM` over an arbitrary byte reader, TLVs as they are written,
that the cursor takes a region apart exactly into these (`lldpCursor_decodes`), and
that it does not look outside its region.

Does not own: which frames carry LLDP, or the rows made of TLVs.
-/

namespace Nanotins.Lldp

open Nanotins.Library

/-! ### Type codes -/

def kLldpEnd : Nat := 0
def kLldpChassisId : Nat := 1
def kLldpPortId : Nat := 2
def kLldpTtl : Nat := 3
def kLldpPortDesc : Nat := 4
def kLldpSysName : Nat := 5
def kLldpSysDesc : Nat := 6
def kLldpSysCaps : Nat := 7
def kLldpMgmtAddr : Nat := 8
def kLldpOrgSpecific : Nat := 127

/-! ### The cursor -/

/-- A TLV; `value` is the offset of its value, `none` for an empty one. -/
structure LldpTlvRecord where
  type : Nat
  length : Nat
  value : Option Nat
deriving DecidableEq, Repr

/-- A cursor at offset `p` of a region that stops before offset `stop`.  The null
cursor of the source is one whose region is empty. -/
structure LldpCursor where
  p : Nat
  stop : Nat
deriving DecidableEq, Repr

section Cursor

variable {m : Type → Type} [Monad m] (rd : Nat → m UInt8)

/-- The next TLV and the cursor behind it; `none` at the End TLV, at the end of the
region and at a TLV that would run past it. -/
def LldpCursor.nextM (cursor : LldpCursor) : m (Option (LldpTlvRecord × LldpCursor)) := do
  if cursor.stop < cursor.p + 2 then
    return none
  else
    let hdr ← readBigM rd cursor.p 2
    let type := hdr / 2 ^ 9
    let length := hdr % 2 ^ 9
    if type = kLldpEnd then
      return none
    else
      let v := cursor.p + 2
      if cursor.stop < v + length then
        return none
      else
        return some (⟨type, length, if length = 0 then none else some v⟩,
          { cursor with p := v + length })

/-- `while (c.next(r))`; a TLV takes two bytes of the region at least. -/
def LldpCursor.recordsM (cursor : LldpCursor) : m (List LldpTlvRecord) :=
  drainM (LldpCursor.nextM rd) (cursor.stop - cursor.p) cursor

end Cursor

namespace LldpCursor

def next (pkt : Bytes) (cursor : LldpCursor) : Option (LldpTlvRecord × LldpCursor) :=
  Id.run (cursor.nextM (byteAt pkt))

def records (pkt : Bytes) (cursor : LldpCursor) : List LldpTlvRecord :=
  drain (next pkt) (cursor.stop - cursor.p) cursor

/-- The bytes that the cursor has before it. -/
def region (pkt : Bytes) (cursor : LldpCursor) : Bytes :=
  readBytes pkt cursor.p (cursor.stop - cursor.p)

variable {pkt : Bytes} {cursor behind : LldpCursor} {record : LldpTlvRecord}

theorem next_eq (pkt : Bytes) (cursor : LldpCursor) :
    cursor.next pkt =
      let hdr := readBig pkt cursor.p 2
      if cursor.stop < cursor.p + 2 then none
      else if hdr / 2 ^ 9 = kLldpEnd then none
      else if cursor.stop < cursor.p + 2 + hdr % 2 ^ 9 then none
      else some (⟨hdr / 2 ^ 9, hdr % 2 ^ 9, if hdr % 2 ^ 9 = 0 then none else some (cursor.p + 2)⟩,
        { cursor with p := cursor.p + 2 + hdr % 2 ^ 9 }) :=
  rfl

theorem next_eq_some_iff :
    cursor.next pkt = some (record, behind) ↔
      let hdr := readBig pkt cursor.p 2
      hdr / 2 ^ 9 ≠ kLldpEnd ∧ cursor.p + 2 + hdr % 2 ^ 9 ≤ cursor.stop ∧
        record = ⟨hdr / 2 ^ 9, hdr % 2 ^ 9, if hdr % 2 ^ 9 = 0 then none else some (cursor.p + 2)⟩ ∧
        behind = { cursor with p := cursor.p + 2 + hdr % 2 ^ 9 } := by
  rw [next_eq]
  dsimp only
  generalize readBig pkt cursor.p 2 % 2 ^ 9 = length
  constructor
  · intro taken
    split at taken
    · contradiction
    split at taken
    · contradiction
    · next running =>
      split at taken
      · contradiction
      · next fits =>
        cases taken
        exact ⟨running, Nat.not_lt.mp fits, rfl, rfl⟩
  · intro parts
    obtain ⟨running, fits, rfl, rfl⟩ := parts
    rw [if_neg (by omega), if_neg running, if_neg (Nat.not_lt.mpr fits)]

/-- A TLV ends where the cursor moves to, inside the region. -/
theorem next_some (taken : cursor.next pkt = some (record, behind)) :
    cursor.p < behind.p ∧ behind.p ≤ cursor.stop ∧ behind.stop = cursor.stop ∧
      behind.p = cursor.p + 2 + record.length ∧
      record.value = if record.length = 0 then none else some (cursor.p + 2) := by
  obtain ⟨-, fits, rfl, rfl⟩ := next_eq_some_iff.mp taken
  exact ⟨by dsimp only; omega, fits, rfl, rfl, rfl⟩

end LldpCursor

/-! ### TLVs as they are written -/

structure LldpTlv where
  type : Nat
  value : Bytes
deriving DecidableEq, Repr

namespace LldpTlv

/-- Seven bits of type, which is not that of the End TLV, and nine of length. -/
structure Legal (tlv : LldpTlv) : Prop where
  positive : 0 < tlv.type
  type_lt : tlv.type < 2 ^ 7
  length_lt : tlv.value.length < 2 ^ 9

instance (tlv : LldpTlv) : Decidable tlv.Legal :=
  decidable_of_iff (0 < tlv.type ∧ tlv.type < 2 ^ 7 ∧ tlv.value.length < 2 ^ 9)
    ⟨fun ⟨positive, type_lt, length_lt⟩ => ⟨positive, type_lt, length_lt⟩,
      fun legal => ⟨legal.positive, legal.type_lt, legal.length_lt⟩⟩

def encode (tlv : LldpTlv) : Bytes :=
  bigBytes 2 (tlv.type * 2 ^ 9 + tlv.value.length) ++ tlv.value

theorem length_encode (tlv : LldpTlv) : tlv.encode.length = 2 + tlv.value.length := by
  rw [encode, List.length_append, length_bigBytes]

end LldpTlv

/-- The TLV that the cursor reports, with the bytes its value points to. -/
def LldpTlvRecord.tlv (pkt : Bytes) (record : LldpTlvRecord) : LldpTlv :=
  ⟨record.type, record.value.elim [] fun value => readBytes pkt value record.length⟩

def lldpGrammar : RecordGrammar LldpTlv UInt8 where
  Record tlv text := tlv.Legal ∧ text = tlv.encode
  Closing _ _ := False
  record_ne_nil := by
    intro tlv text record empty
    obtain ⟨-, rfl⟩ := record
    have length := congrArg List.length empty
    rw [LldpTlv.length_encode, List.length_nil] at length
    omega
  closing_ne_nil closing := closing.elim

namespace LldpCursor

variable {pkt : Bytes} {cursor behind : LldpCursor} {record : LldpTlvRecord}

theorem tlv_of_pointer (type length p : Nat) :
    LldpTlvRecord.tlv pkt ⟨type, length, if length = 0 then none else some p⟩ =
      ⟨type, readBytes pkt p length⟩ := by
  rw [LldpTlvRecord.tlv]
  dsimp only
  split
  · next empty =>
    rw [empty]
    rfl
  · rfl

theorem region_tlv {length : Nat} (inside : cursor.p + 2 + length ≤ cursor.stop) :
    cursor.region pkt =
      (readBytes pkt cursor.p 2 ++ readBytes pkt (cursor.p + 2) length) ++
        region pkt { cursor with p := cursor.p + 2 + length } := by
  obtain ⟨rest, stop⟩ := Nat.exists_eq_add_of_le inside
  rw [region, region, stop, ← readBytes_add, (by omega : cursor.p + 2 + length =
    cursor.p + (2 + length)), ← readBytes_add]
  congr 1
  dsimp only
  omega

/-- A TLV that is taken stands at the front of the region. -/
theorem sound_of_next (taken : cursor.next pkt = some (record, behind)) :
    (record.tlv pkt).Legal ∧
      cursor.region pkt = (record.tlv pkt).encode ++ behind.region pkt := by
  obtain ⟨running, fits, rfl, rfl⟩ := next_eq_some_iff.mp taken
  have bound : readBig pkt cursor.p 2 < 2 ^ 16 := readBig_lt pkt cursor.p 2
  have word := Nat.div_add_mod' (readBig pkt cursor.p 2) (2 ^ 9)
  rw [tlv_of_pointer]
  constructor
  · refine ⟨Nat.pos_of_ne_zero running, by dsimp only; omega, ?_⟩
    dsimp only
    rw [length_readBytes]
    exact Nat.mod_lt _ (Nat.two_pow_pos 9)
  · rw [region_tlv fits, LldpTlv.encode]
    dsimp only
    rw [length_readBytes, word, bigBytes_readBig]

/-- A TLV at the front of the region is taken. -/
theorem next_of_tlv {tlv : LldpTlv} {more : Bytes} (legal : tlv.Legal)
    (stands : cursor.region pkt = tlv.encode ++ more) :
    ∃ record behind, cursor.next pkt = some (record, behind) ∧ record.tlv pkt = tlv ∧
      behind.region pkt = more := by
  obtain ⟨type, value⟩ := tlv
  obtain ⟨positive, type_lt, length_lt⟩ := legal
  dsimp only at positive type_lt length_lt
  rw [LldpTlv.encode, List.append_assoc] at stands
  obtain ⟨headInside, headRead, behindHead⟩ := readBytes_eq_append stands
  rw [length_bigBytes] at headInside headRead behindHead
  obtain ⟨valueInside, valueRead, rest⟩ := readBytes_eq_append behindHead
  dsimp only at headRead valueInside valueRead rest
  have hdr := readBig_of_readBytes headRead
  rw [Nat.mod_eq_of_lt (by omega)] at hdr
  have typeRead : readBig pkt cursor.p 2 / 2 ^ 9 = type := by omega
  have lengthRead : readBig pkt cursor.p 2 % 2 ^ 9 = value.length := by omega
  refine ⟨_, _, next_eq_some_iff.mpr ⟨?_, ?_, rfl, rfl⟩, ?_, ?_⟩
  · rw [typeRead]
    exact Nat.ne_of_gt positive
  · rw [lengthRead]
    omega
  · rw [tlv_of_pointer, typeRead, lengthRead, valueRead]
  · rw [region, ← rest, lengthRead]
    congr 1
    dsimp only
    omega

theorem readBy (pkt : Bytes) :
    lldpGrammar.ReadBy (fun _ => True) (next pkt) (LldpTlvRecord.tlv pkt) (region pkt) where
  preserved _ _ := trivial
  sound _ taken := by
    obtain ⟨legal, split⟩ := sound_of_next taken
    exact .inl ⟨_, ⟨legal, rfl⟩, split⟩
  record := by
    intro cursor tlv text more _ record split
    obtain ⟨legal, rfl⟩ := record
    exact next_of_tlv legal split
  closing _ closing := closing.elim

/-- The bounded loop takes the TLVs of the unbounded one. -/
theorem records_of_walk {records : List LldpTlvRecord} {final : LldpCursor}
    (walk : Walk (next pkt) cursor records final) : cursor.records pkt = records := by
  apply walk.drain_eq
  have few := (readBy pkt).length_le walk trivial
  rwa [region, length_readBytes] at few

/-- Every value lies in the region. -/
theorem value_of_mem_records (member : record ∈ cursor.records pkt) :
    ∀ v, record.value = some v → cursor.p ≤ v ∧ v + record.length ≤ cursor.stop := by
  refine forall_mem_drain (fun state : LldpCursor => cursor.p ≤ state.p ∧ state.stop = cursor.stop)
    (fun record => ∀ v, record.value = some v → cursor.p ≤ v ∧ v + record.length ≤ cursor.stop)
    ?_ ⟨Nat.le_refl _, rfl⟩ _ record member
  intro state behind first inside taken
  obtain ⟨forward, fits, stop, place, start⟩ := next_some taken
  refine ⟨?_, by omega, by omega⟩
  intro v here
  rw [start] at here
  split at here
  · contradiction
  · cases here
    omega

theorem legal_of_mem_records (member : record ∈ cursor.records pkt) : (record.tlv pkt).Legal := by
  refine forall_mem_drain (fun _ : LldpCursor => True) (fun record => (record.tlv pkt).Legal) ?_
    trivial _ record member
  intro state behind first _ taken
  exact ⟨(sound_of_next taken).1, trivial⟩

end LldpCursor

/-- Where an LLDPDU ends: the region is used up but for a byte, the End TLV stands
there, or a TLV that is longer than what is left. -/
def EndsLldpdu (left : Bytes) : Prop :=
  left.length < 2 ∨ readBig left 0 2 / 2 ^ 9 = kLldpEnd ∨
    left.length < 2 + readBig left 0 2 % 2 ^ 9

instance (left : Bytes) : Decidable (EndsLldpdu left) := inferInstanceAs (Decidable (_ ∨ _))

/-- The End TLV ends an LLDPDU, whatever length it has and whatever follows. -/
theorem endsLldpdu_end {length : Nat} (small : length < 2 ^ 9) (padding : Bytes) :
    EndsLldpdu (bigBytes 2 (kLldpEnd * 2 ^ 9 + length) ++ padding) := by
  have stands := StandsAt.mk [] (bigBytes 2 (kLldpEnd * 2 ^ 9 + length)) padding
  rw [List.nil_append, List.length_nil] at stands
  refine .inr (.inl ?_)
  rw [stands.readBig_eq, Nat.mod_eq_of_lt (by simp [kLldpEnd]; omega), kLldpEnd]
  omega

theorem stuck_iff (left : Bytes) : lldpGrammar.Stuck left ↔ EndsLldpdu left := by
  have whole : LldpCursor.region left ⟨0, left.length⟩ = left := readBytes_self left
  have ended : LldpCursor.next left ⟨0, left.length⟩ = none ↔
      lldpGrammar.Stuck (LldpCursor.region left ⟨0, left.length⟩) :=
    (LldpCursor.readBy left).next_eq_none_iff trivial
  rw [whole] at ended
  rw [← ended, LldpCursor.next_eq, EndsLldpdu]
  dsimp only
  rw [Nat.zero_add]
  generalize readBig left 0 2 / 2 ^ 9 = type
  generalize readBig left 0 2 % 2 ^ 9 = length
  by_cases short : left.length < 2
  · simp [short]
  by_cases running : type = kLldpEnd
  · simp [running]
  by_cases beyond : left.length < 2 + length <;> simp [short, running, beyond]

theorem encodes_lldpGrammar_iff (tlvs : List LldpTlv) (text : Bytes) :
    lldpGrammar.Encodes tlvs text ↔ (∀ tlv ∈ tlvs, tlv.Legal) ∧ text = tlvs.flatMap LldpTlv.encode :=
  RecordGrammar.encodes_iff (fun _ _ => Iff.rfl) tlvs text

/-- The cursor takes a region that is written as TLVs apart into these. -/
theorem LldpCursor.records_of_region {pkt : Bytes} {cursor : LldpCursor} {tlvs : List LldpTlv}
    {left : Bytes} (legal : ∀ tlv ∈ tlvs, tlv.Legal) (ended : EndsLldpdu left)
    (split : cursor.region pkt = tlvs.flatMap LldpTlv.encode ++ left) :
    (cursor.records pkt).map (LldpTlvRecord.tlv pkt) = tlvs := by
  have readBy := LldpCursor.readBy pkt
  have encodes := (encodes_lldpGrammar_iff tlvs _).mpr ⟨legal, rfl⟩
  have stops : ∀ {state : LldpCursor}, state.region pkt = left →
      LldpCursor.next pkt state = none := by
    intro state atLeft
    apply (readBy.next_eq_none_iff trivial).mpr
    rw [atLeft]
    exact (stuck_iff left).mpr ended
  have ending : ∀ {state : LldpCursor}, True → state.region pkt = left →
      ∃ taken final, Walk (LldpCursor.next pkt) state taken final ∧
        taken.map (LldpTlvRecord.tlv pkt) = [] :=
    fun {state} _ atLeft => ⟨[], state, .stop (stops atLeft), rfl⟩
  obtain ⟨records, final, walk, same⟩ := readBy.walk_of_encodes encodes ending trivial split
  rw [LldpCursor.records_of_walk walk, same, List.append_nil]

/-- Any region is one list of TLVs and an ending, in exactly one way; the cursor
reports these TLVs. -/
theorem lldpCursor_decodes (pkt : Bytes) (cursor : LldpCursor) :
    ∃ tlvs left, (∀ tlv ∈ tlvs, tlv.Legal) ∧ EndsLldpdu left ∧
      cursor.region pkt = tlvs.flatMap LldpTlv.encode ++ left ∧
      (cursor.records pkt).map (LldpTlvRecord.tlv pkt) = tlvs ∧
      ∀ given rest, (∀ tlv ∈ given, tlv.Legal) → EndsLldpdu rest →
        cursor.region pkt = given.flatMap LldpTlv.encode ++ rest → given = tlvs ∧ rest = left := by
  have readBy := LldpCursor.readBy pkt
  obtain ⟨records, final, walk⟩ : ∃ records final,
      Walk (LldpCursor.next pkt) cursor records final := readBy.exists_walk trivial
  obtain ⟨tlvs, consumed, encodes, ending⟩ := readBy.consumed_of_walk walk trivial
  rcases ending with ⟨rfl, region, stuck⟩ | ⟨tlv, text, padding, closing, -⟩
  · obtain ⟨legal, rfl⟩ := (encodes_lldpGrammar_iff _ _).mp encodes
    have ended := (stuck_iff _).mp stuck
    have reported := LldpCursor.records_of_region legal ended region
    refine ⟨_, _, legal, ended, region, reported, ?_⟩
    intro given rest givenLegal givenEnded split
    obtain rfl := (LldpCursor.records_of_region givenLegal givenEnded split).symm.trans reported
    refine ⟨rfl, ?_⟩
    rw [split] at region
    exact List.append_cancel_left region
  · exact closing.elim

/-! ### Reads -/

section Guarded

variable {pkt : Bytes} {lo hi : Nat} {cursor : LldpCursor}

theorem LldpCursor.nextM_guarded (above : lo ≤ cursor.p) (below : cursor.stop ≤ hi) :
    cursor.nextM (guardedByte pkt lo hi) = some (cursor.next pkt) := by
  rw [nextM, next_eq]
  dsimp only
  split
  · rfl
  · rw [readBigM_guarded above (by omega)]
    dsimp only [bind, Option.bind]
    split
    · rfl
    · exact (apply_ite some _ _ _).symm

/-- Walking the TLVs reads the region only. -/
theorem LldpCursor.recordsM_guarded (above : lo ≤ cursor.p) (below : cursor.stop ≤ hi) :
    cursor.recordsM (guardedByte pkt lo hi) = some (cursor.records pkt) := by
  apply drainM_eq_some fun state : LldpCursor => lo ≤ state.p ∧ state.stop ≤ hi
  · intro state inside
    exact nextM_guarded inside.1 inside.2
  · intro state behind record inside taken
    have := next_some taken
    omega
  · exact ⟨above, below⟩

end Guarded

end Nanotins.Lldp
