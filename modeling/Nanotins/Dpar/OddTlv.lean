import Nanotins.Children.SomeipTlvGrammar
import Nanotins.Dpar.DescribedRow

/-!
Contract: the downstream Kind of the dpar example, which tabulates the elements of
SOME/IP TLV arrays.

Owns: the rows that `OddTlvKind` makes of a region, that reading them stays inside the
region, and that written arrays give one row for each element (`oddTlvKind_emits`).

Does not own: the cursor over members, or what the example prints.
-/

namespace Nanotins.Dpar

open Nanotins.Library Nanotins.Children

def kSomeipTlvWtLen16 : Nat := 6

structure OddTlvRow where
  packetId : Nat
  ruleId : Nat
  elemIndex : Nat
  arrayId : Nat
  elemSize : Nat
  elemCount : Nat
  elemDataId : Nat
deriving DecidableEq, Repr

/-! ### The Kind -/

section Reader

variable {m : Type → Type} [Monad m] (rd : Nat → m UInt8)

/-- The loop over the elements from number `i` on, which stands at `q`; `row` makes a
row of an element's number and data id.  Elements are bounded by the region. -/
def elementRowsM (stop esz : Nat) (row : Nat → Nat → OddTlvRow) :
    Nat → Nat → Nat → m (List OddTlvRow)
  | 0, _, _ => pure []
  | more + 1, i, q => do
      if stop < q + esz then
        return []
      else
        let head ← SomeipTlvCursor.nextM rd ⟨q, q + esz⟩
        let rows ← elementRowsM stop esz row more (i + 1) (q + esz)
        match head with
        | none => return rows
        | some (er, _) => return row i er.dataId :: rows

/-- The rows of a member: those of its elements if it is an array. -/
def arrayRowsM (pid ruleId stop : Nat) (r : SomeipTlvRecord) : m (List OddTlvRow) := do
  match r.value with
  | none => return []
  | some value =>
      if r.wireType = kSomeipTlvWtLen16 ∧ 4 ≤ r.length then
        let esz ← readBigM rd value 2
        let cnt ← readBigM rd (value + 2) 2
        elementRowsM rd stop esz (fun i id => ⟨pid, ruleId, i, r.dataId, esz, cnt, id⟩) cnt 0
          (value + 4)
      else
        return []

def oddTlvRowsM (pid ruleId p stop : Nat) : m (List OddTlvRow) := do
  let records ← SomeipTlvCursor.recordsM rd ⟨p, stop⟩
  let rows ← records.mapM (arrayRowsM rd pid ruleId stop)
  return rows.flatten

end Reader

section Rows

variable (pkt : Bytes)

def elementRows (stop esz : Nat) (row : Nat → Nat → OddTlvRow) (more i q : Nat) :
    List OddTlvRow :=
  Id.run (elementRowsM (byteAt pkt) stop esz row more i q)

def arrayRows (pid ruleId stop : Nat) (r : SomeipTlvRecord) : List OddTlvRow :=
  Id.run (arrayRowsM (byteAt pkt) pid ruleId stop r)

def oddTlvRows (pid ruleId p stop : Nat) : List OddTlvRow :=
  (SomeipTlvCursor.records pkt ⟨p, stop⟩).flatMap (arrayRows pkt pid ruleId stop)

end Rows

/-- One row for each element of an array. -/
def OddTlvKind : Kind where
  Row := OddTlvRow
  name := "oddtlv".toList
  emit pid ruleId pkt p stop out :=
    ((oddTlvRows pkt pid ruleId p stop).length, out ++ oddTlvRows pkt pid ruleId p stop)

theorem oddTlvKind_appends : OddTlvKind.Appends := by
  intro pid ruleId pkt p stop out
  rfl

section Equations

variable {pkt : Bytes} {stop esz : Nat} {row : Nat → Nat → OddTlvRow}

theorem elementRows_succ (more i q : Nat) :
    elementRows pkt stop esz row (more + 1) i q =
      if stop < q + esz then []
      else
        ((SomeipTlvCursor.next pkt ⟨q, q + esz⟩).map fun er => row i er.1.dataId).toList ++
          elementRows pkt stop esz row more (i + 1) (q + esz) := by
  rw [elementRows, elementRowsM]
  split
  · rfl
  · have head : SomeipTlvCursor.nextM (byteAt pkt) ⟨q, q + esz⟩ =
        (pure (SomeipTlvCursor.next pkt ⟨q, q + esz⟩) : Id _) := rfl
    rw [head]
    cases SomeipTlvCursor.next pkt ⟨q, q + esz⟩ <;> rfl

theorem arrayRows_of_none {pid ruleId : Nat} {r : SomeipTlvRecord} (empty : r.value = none) :
    arrayRows pkt pid ruleId stop r = [] := by
  rw [arrayRows, arrayRowsM, empty]
  rfl

theorem arrayRows_of_some {pid ruleId value : Nat} {r : SomeipTlvRecord}
    (start : r.value = some value) :
    arrayRows pkt pid ruleId stop r =
      if r.wireType = kSomeipTlvWtLen16 ∧ 4 ≤ r.length then
        elementRows pkt stop (readBig pkt value 2)
          (fun i id => ⟨pid, ruleId, i, r.dataId, readBig pkt value 2,
            readBig pkt (value + 2) 2, id⟩)
          (readBig pkt (value + 2) 2) 0 (value + 4)
      else [] := by
  rw [arrayRows, arrayRowsM, start]
  dsimp only
  split <;> rfl

end Equations

/-! ### Reading stays inside the region -/

section Guarded

variable {pkt : Bytes} {lo stop : Nat}

theorem elementRowsM_guarded {esz q : Nat} {row : Nat → Nat → OddTlvRow} (above : lo ≤ q)
    (more i : Nat) :
    elementRowsM (guardedByte pkt lo stop) stop esz row more i q =
      some (elementRows pkt stop esz row more i q) := by
  induction more generalizing i q with
  | zero => rfl
  | succ more inductionHypothesis =>
      rw [elementRows_succ, elementRowsM]
      split
      · rfl
      · next fits =>
        rw [SomeipTlvCursor.nextM_guarded above (Nat.not_lt.mp fits),
          inductionHypothesis (Nat.le_add_right_of_le above)]
        cases SomeipTlvCursor.next pkt ⟨q, q + esz⟩ <;> rfl

theorem arrayRowsM_guarded {p pid ruleId : Nat} {r : SomeipTlvRecord}
    (inside : SomeipTlvCursor.ValueInside ⟨p, stop⟩ r) :
    arrayRowsM (guardedByte pkt p stop) pid ruleId stop r =
      some (arrayRows pkt pid ruleId stop r) := by
  cases start : r.value with
  | none =>
      rw [arrayRows_of_none start, arrayRowsM, start]
      rfl
  | some value =>
      obtain ⟨above, below⟩ := inside value start
      dsimp only at above below
      rw [arrayRows_of_some start, arrayRowsM, start]
      dsimp only
      split
      · next array =>
        rw [readBigM_guarded above (by omega), readBigM_guarded (by omega) (by omega)]
        exact elementRowsM_guarded (by omega) _ _
      · rfl

theorem valueInside_of_mem_records {cursor : SomeipTlvCursor} :
    ∀ record ∈ cursor.records pkt, cursor.ValueInside record := by
  obtain ⟨records, final, walk⟩ : ∃ records final,
      Walk (SomeipTlvCursor.next pkt) cursor records final :=
    (SomeipTlvCursor.readBy pkt).exists_walk trivial
  rw [SomeipTlvCursor.records_of_walk walk]
  exact SomeipTlvCursor.valueInside_of_walk walk

/-- The rows of a region are read from its bytes only. -/
theorem oddTlvRowsM_guarded (pid ruleId p : Nat) :
    oddTlvRowsM (guardedByte pkt p stop) pid ruleId p stop =
      some (oddTlvRows pkt pid ruleId p stop) := by
  have read : SomeipTlvCursor.recordsM (guardedByte pkt p stop) ⟨p, stop⟩ =
      some (SomeipTlvCursor.records pkt ⟨p, stop⟩) :=
    SomeipTlvCursor.recordsM_guarded (Nat.le_refl p) (Nat.le_refl stop)
  have each : (SomeipTlvCursor.records pkt ⟨p, stop⟩).mapM
      (arrayRowsM (guardedByte pkt p stop) pid ruleId stop) =
        some ((SomeipTlvCursor.records pkt ⟨p, stop⟩).map (arrayRows pkt pid ruleId stop)) :=
    mapM_eq_some fun record member =>
      arrayRowsM_guarded (valueInside_of_mem_records record member)
  rw [oddTlvRowsM, read]
  dsimp only [bind, Option.bind]
  rw [each]
  rfl

end Guarded

/-! ### Written arrays -/

/-- An element: a member, and what else fills the element. -/
structure ArrayElement where
  reserved : Bool
  item : SomeipTlvItem
  filler : Bytes
  legal : item.Legal

def ArrayElement.encode (element : ArrayElement) : Bytes :=
  element.item.encode element.reserved ++ element.filler

/-- An array of elements of one size. -/
structure ArrayContent where
  dataId : Nat
  elemSize : Nat
  elements : List ArrayElement
  dataId_lt : dataId < 2 ^ 12
  sized : ∀ element ∈ elements, element.encode.length = elemSize
  elemSize_lt : elemSize < 2 ^ 16
  total_lt : 4 + elements.length * elemSize < 2 ^ 16

namespace ArrayContent

/-- The size and number of the elements, and the elements. -/
def value (content : ArrayContent) : Bytes :=
  bigBytes 2 content.elemSize ++
    (bigBytes 2 content.elements.length ++ content.elements.flatMap ArrayElement.encode)

def item (content : ArrayContent) : SomeipTlvItem :=
  ⟨content.dataId, kSomeipTlvWtLen16, content.value⟩

/-- One row for each element. -/
def rows (pid ruleId : Nat) (content : ArrayContent) : List OddTlvRow :=
  content.elements.mapIdx fun i element =>
    ⟨pid, ruleId, i, content.dataId, content.elemSize, content.elements.length,
      element.item.dataId⟩

theorem length_value (content : ArrayContent) :
    content.value.length = 4 + content.elements.length * content.elemSize := by
  have elements : (content.elements.flatMap ArrayElement.encode).length =
      content.elements.length * content.elemSize := by
    rw [List.length_flatMap, List.map_congr_left content.sized]
    simp
  rw [value, List.length_append, List.length_append, length_bigBytes, length_bigBytes, elements]
  omega

theorem legal (content : ArrayContent) : content.item.Legal := by
  refine ⟨content.dataId_lt, ?_⟩
  show content.value.length < 2 ^ 16
  rw [content.length_value]
  exact content.total_lt

/-- Elements are not empty, so there are fewer than bytes. -/
theorem length_elements_lt (content : ArrayContent) : content.elements.length < 2 ^ 16 := by
  have total := content.total_lt
  cases listed : content.elements with
  | nil => exact Nat.two_pow_pos 16
  | cons element elements =>
      have sized := content.sized element (by rw [listed]; exact List.mem_cons_self)
      have positive : 0 < content.elemSize := by
        rw [← sized, ArrayElement.encode, List.length_append, SomeipTlvItem.length_encode,
          SomeipTlvItem.header]
        omega
      have fewer := Nat.le_mul_of_pos_right content.elements.length positive
      rw [← listed]
      omega

end ArrayContent

/-- A member that is a written array, or one that is none. -/
inductive OddTlvMember where
  | array (content : ArrayContent)
  | other (item : SomeipTlvItem) (legal : item.Legal)
      (plain : item.wireType = kSomeipTlvWtLen16 → item.value.length < 4)

namespace OddTlvMember

def item : OddTlvMember → SomeipTlvItem
  | array content => content.item
  | other item _ _ => item

theorem legal : (member : OddTlvMember) → member.item.Legal
  | array content => content.legal
  | other _ legal _ => legal

def rows (pid ruleId : Nat) : OddTlvMember → List OddTlvRow
  | array content => content.rows pid ruleId
  | other _ _ _ => []

end OddTlvMember

section Written

variable {pkt : Bytes} {stop : Nat}

/-- The elements of an array are tabulated. -/
theorem elementRows_eq {elements : List ArrayElement} {esz q : Nat}
    (sized : ∀ element ∈ elements, element.encode.length = esz)
    (stands : readBytes pkt q (elements.length * esz) = elements.flatMap ArrayElement.encode)
    (inside : q + elements.length * esz ≤ stop) (row : Nat → Nat → OddTlvRow) (i : Nat) :
    elementRows pkt stop esz row elements.length i q =
      elements.mapIdx fun k element => row (i + k) element.item.dataId := by
  induction elements generalizing q i with
  | nil => rfl
  | cons element elements inductionHypothesis =>
      obtain ⟨here, others⟩ := List.forall_mem_cons.mp sized
      rw [List.length_cons, Nat.succ_mul, Nat.add_comm (elements.length * esz)] at stands inside
      rw [readBytes_add, List.flatMap_cons] at stands
      obtain ⟨front, back⟩ := List.append_inj stands (by rw [length_readBytes, here])
      have region : SomeipTlvCursor.region pkt ⟨q, q + esz⟩ =
          element.item.encode element.reserved ++ element.filler := by
        rw [SomeipTlvCursor.region, Nat.add_sub_cancel_left]
        exact front
      obtain ⟨record, behind, taken, same, -⟩ :=
        SomeipTlvCursor.next_of_member element.legal region
      have id : record.dataId = element.item.dataId := congrArg SomeipTlvItem.dataId same
      rw [List.length_cons, elementRows_succ, if_neg (by omega), taken,
        inductionHypothesis others back (by omega), List.mapIdx_cons]
      simp only [Option.map_some, Option.toList_some, List.singleton_append, id, Nat.add_zero]
      congr 2
      funext k later
      rw [Nat.add_assoc, Nat.add_comm 1]

/-- A member is as long as its value. -/
theorem length_value_of_mem_records {cursor : SomeipTlvCursor} :
    ∀ record ∈ cursor.records pkt, (record.item pkt).value.length = record.length := by
  obtain ⟨records, final, walk⟩ : ∃ records final,
      Walk (SomeipTlvCursor.next pkt) cursor records final :=
    (SomeipTlvCursor.readBy pkt).exists_walk trivial
  rw [SomeipTlvCursor.records_of_walk walk]
  exact fun record => (contiguous_of_walk walk).length_value pkt

/-- The parts of the value of a written array. -/
theorem ArrayContent.parts {content : ArrayContent} {value : Nat}
    (stands : readBytes pkt value (4 + content.elements.length * content.elemSize) = content.value) :
    readBig pkt value 2 = content.elemSize ∧
      readBig pkt (value + 2) 2 = content.elements.length ∧
      readBytes pkt (value + 4) (content.elements.length * content.elemSize) =
        content.elements.flatMap ArrayElement.encode := by
  obtain ⟨-, size, behind⟩ := readBytes_eq_append stands
  obtain ⟨-, count, elements⟩ := readBytes_eq_append behind
  rw [length_bigBytes] at size count elements
  rw [length_bigBytes] at count elements
  have sizeRead := (readBig_of_readBytes size).trans (Nat.mod_eq_of_lt content.elemSize_lt)
  have countRead := (readBig_of_readBytes count).trans (Nat.mod_eq_of_lt content.length_elements_lt)
  have rest : 4 + content.elements.length * content.elemSize - 2 - 2 =
      content.elements.length * content.elemSize := by omega
  rw [rest] at elements
  exact ⟨sizeRead, countRead, elements⟩

/-- A member that the cursor reports has the rows of what was written. -/
theorem arrayRows_eq {record : SomeipTlvRecord} {p : Nat}
    (member : record ∈ SomeipTlvCursor.records pkt ⟨p, stop⟩) {written : OddTlvMember}
    (same : record.item pkt = written.item) (pid ruleId : Nat) :
    arrayRows pkt pid ruleId stop record = written.rows pid ruleId := by
  have inside := valueInside_of_mem_records record member
  have long := length_value_of_mem_records record member
  have wireType : record.wireType = written.item.wireType := congrArg SomeipTlvItem.wireType same
  have dataId : record.dataId = written.item.dataId := congrArg SomeipTlvItem.dataId same
  rw [same] at long
  cases start : record.value with
  | none =>
      rw [arrayRows_of_none start]
      have empty : written.item.value = [] := by
        rw [← same, SomeipTlvRecord.item, start]
        rfl
      cases written with
      | other item legal plain => rfl
      | array content =>
          have full := content.length_value
          have none : content.value = [] := empty
          rw [none, List.length_nil] at full
          omega
  | some value =>
      rw [arrayRows_of_some start]
      cases written with
      | other item legal plain =>
          refine if_neg fun array => ?_
          have short := plain (wireType.symm.trans array.1)
          have exact : item.value.length = record.length := long
          omega
      | array content =>
          have below := (inside value start).2
          have exact : content.value.length = record.length := long
          have stands : readBytes pkt value record.length = content.value := by
            have read : (record.item pkt).value = content.value :=
              congrArg SomeipTlvItem.value same
            rw [SomeipTlvRecord.item, start] at read
            exact read
          rw [content.length_value] at exact
          rw [← exact] at stands below
          obtain ⟨size, count, elements⟩ := ArrayContent.parts stands
          rw [← Nat.add_assoc] at below
          have tabulated := elementRows_eq content.sized elements below
            (fun i id => ⟨pid, ruleId, i, record.dataId, content.elemSize,
              content.elements.length, id⟩) 0
          rw [if_pos ⟨wireType, by omega⟩, size, count, tabulated, dataId]
          simp only [Nat.zero_add]
          rfl

theorem flatMap_eq_of_map_eq {α β γ δ : Type} {f : α → γ} {g : β → γ} {F : α → List δ}
    {G : β → List δ} {as : List α} {bs : List β} (same : as.map f = bs.map g)
    (each : ∀ a ∈ as, ∀ b, f a = g b → F a = G b) : as.flatMap F = bs.flatMap G := by
  induction as generalizing bs with
  | nil =>
      obtain rfl := List.map_eq_nil_iff.mp same.symm
      rfl
  | cons a as inductionHypothesis =>
      cases bs with
      | nil => exact absurd same (List.cons_ne_nil _ _)
      | cons b bs =>
          obtain ⟨head, tail⟩ := List.cons.inj same
          obtain ⟨here, others⟩ := List.forall_mem_cons.mp each
          rw [List.flatMap_cons, List.flatMap_cons, here b head, inductionHypothesis tail others]

/-- `OddTlvKind` inverts writing: in a region that holds any members, arrays or not,
it appends one row for each element of the arrays, in order, and returns how many;
all of it is read from the region. -/
theorem oddTlvKind_emits (pid ruleId p : Nat) (out : List OddTlvRow)
    (written : List (Bool × OddTlvMember))
    (stands : SomeipTlvCursor.region pkt ⟨p, stop⟩ =
      written.flatMap fun member => member.2.item.encode member.1) :
    let rows := written.flatMap fun member => member.2.rows pid ruleId
    OddTlvKind.emit pid ruleId pkt p stop out = (rows.length, out ++ rows) ∧
      oddTlvRowsM (guardedByte pkt p stop) pid ruleId p stop = some rows := by
  intro rows
  have readBy := SomeipTlvCursor.readBy pkt
  have encodes : someipTlvGrammar.Encodes (written.map fun member => member.2.item)
      (written.flatMap fun member => member.2.item.encode member.1) := by
    refine (encodes_someipTlvGrammar_iff _ _).mpr
      ⟨written.map fun member => (member.1, member.2.item), ?_, ?_, ?_⟩
    · rw [List.map_map]
      rfl
    · exact List.forall_mem_map.mpr fun member _ => member.2.legal
    · rw [List.flatMap_map]
  obtain ⟨records, final, walk, same⟩ := readBy.walk_of_encodes encodes readBy.walk_of_nil trivial
    (by rw [stands, List.append_nil])
  rw [List.append_nil] at same
  have tabulated : oddTlvRows pkt pid ruleId p stop = rows := by
    refine flatMap_eq_of_map_eq ?_ fun record member written same =>
      arrayRows_eq member same pid ruleId
    rw [SomeipTlvCursor.records_of_walk walk]
    exact same
  exact ⟨congrArg (fun made => (made.length, out ++ made)) tabulated,
    (oddTlvRowsM_guarded pid ruleId p).trans (congrArg some tabulated)⟩

end Written

/-- An array of two elements, and a member that is none. -/
def arrayRegion : Bytes :=
  [0x61, 0x01, 0, 12, 0, 4, 0, 2] ++ [0, 1, 7, 0] ++ [0, 2, 9, 0] ++ [0, 5, 3]

theorem oddTlvKind_emits_arrayRegion :
    let rows : List OddTlvRow := [⟨5, 1, 0, 0x101, 4, 2, 1⟩, ⟨5, 1, 1, 0x101, 4, 2, 2⟩]
    OddTlvKind.emit 5 1 arrayRegion 0 arrayRegion.length [] = (rows.length, [] ++ rows) ∧
      oddTlvRowsM (guardedByte arrayRegion 0 arrayRegion.length) 5 1 0 arrayRegion.length =
        some rows := by
  let content : ArrayContent :=
    { dataId := 0x101
      elemSize := 4
      elements :=
        [⟨false, ⟨1, 0, [7]⟩, [0], by decide, rfl⟩, ⟨false, ⟨2, 0, [9]⟩, [0], by decide, rfl⟩]
      dataId_lt := by decide
      sized := by decide
      elemSize_lt := by decide
      total_lt := by decide }
  exact oddTlvKind_emits 5 1 0 []
    [(false, .array content), (false, .other ⟨5, 0, [3]⟩ ⟨by decide, rfl⟩ (by decide))] (by decide)

end Nanotins.Dpar
