import Nanotins.Children.SomeipTlvGrammar
import Nanotins.Dpar.Palette

/-!
Contract: SOME/IP TLV regions decoded, and the rows that `SomeipTlvKind` makes of
their members.

Owns: for which regions the rows number and locate the members
(`emitLocates_iff`), and the decoding of any region with it
(`someipTlv_decodes`).

Does not own: which packets and regions the rules select.
-/

namespace Nanotins.Dpar

open Nanotins.Library Nanotins.Children

/-- The Kind emits one row for each member of `[p, stop)`: it holds what the
cursor reports, the number of the member, and where from `p` on its value
starts. -/
def EmitLocates (pid ruleId : Nat) (pkt : Bytes) (p stop : Nat) : Prop :=
  ∀ out : List SomeipTlvRow, ∃ rows : List SomeipTlvRow,
    SomeipTlvKind.emit pid ruleId pkt p stop out = (rows.length, out ++ rows) ∧
      rows.length = (SomeipTlvCursor.records pkt ⟨p, stop⟩).length ∧
      ∀ (k : Nat) (row : SomeipTlvRow) (record : SomeipTlvRecord),
        rows[k]? = some row → (SomeipTlvCursor.records pkt ⟨p, stop⟩)[k]? = some record →
        row.packetId = pid ∧ row.ruleId = ruleId ∧ row.memberIndex = k ∧
          row.dataId = record.dataId ∧ row.wireType = record.wireType ∧
          row.length = record.length ∧
          ∀ value, record.value = some value → p + row.valueOffset = value

/-- Every member of the region has fewer than 2^32 members before it, and its
value, if it has one, starts less than 2^32 bytes behind the region's start. -/
def Addressable (region : Bytes) : Prop :=
  ∀ (front : List (Bool × SomeipTlvItem)) (member : Bool × SomeipTlvItem) (more : Bytes),
    (∀ item ∈ front ++ [member], item.2.Legal) →
    region = (front ++ [member]).flatMap (fun item => item.2.encode item.1) ++ more →
    front.length < 2 ^ 32 ∧
      (member.2.value ≠ [] →
        (front.flatMap fun item => item.2.encode item.1).length + member.2.header < 2 ^ 32)

section Rows

variable {pid ruleId : Nat} {pkt : Bytes} {p stop : Nat}

theorem getElem?_someipTlvRows (k : Nat) :
    (someipTlvRows pid ruleId pkt p stop)[k]? =
      (SomeipTlvCursor.records pkt ⟨p, stop⟩)[k]?.map fun record =>
        ⟨pid, ruleId, k % 2 ^ 32, record.dataId, record.wireType, record.length,
          (record.value.elim 0 fun value => value - p) % 2 ^ 32⟩ := by
  rw [someipTlvRows, List.getElem?_map, List.getElem?_zipIdx, Option.map_map, Nat.zero_add]
  rfl

/-- Numbers and offsets are right as long as they are below 2^32. -/
theorem emitLocates_iff_small :
    EmitLocates pid ruleId pkt p stop ↔
      ∀ k record, (SomeipTlvCursor.records pkt ⟨p, stop⟩)[k]? = some record →
        k < 2 ^ 32 ∧ ∀ value, record.value = some value → value - p < 2 ^ 32 := by
  constructor
  · intro locates k record found
    obtain ⟨rows, emitted, -, rowsOk⟩ := locates []
    have same : rows = someipTlvRows pid ruleId pkt p stop := (congrArg Prod.snd emitted).symm
    have row := congrArg (fun rows : List SomeipTlvRow => rows[k]?) same
    rw [getElem?_someipTlvRows, found] at row
    obtain ⟨-, -, index, -, -, -, offset⟩ := rowsOk k _ record row found
    dsimp only at index offset
    constructor
    · rw [← index]
      exact Nat.mod_lt _ (by decide)
    · intro value here
      have start := offset value here
      rw [here, Option.elim_some] at start
      have := Nat.mod_lt (value - p) (by decide : 0 < 2 ^ 32)
      omega
  · intro small out
    refine ⟨someipTlvRows pid ruleId pkt p stop,
      by rw [length_someipTlvRows]; rfl, length_someipTlvRows .., ?_⟩
    intro k row record rowFound found
    obtain ⟨index, offset⟩ := small k record found
    rw [getElem?_someipTlvRows, found] at rowFound
    cases rowFound
    refine ⟨rfl, rfl, Nat.mod_eq_of_lt index, rfl, rfl, rfl, ?_⟩
    intro value here
    obtain ⟨records, final, walk⟩ : ∃ records final,
        Walk (SomeipTlvCursor.next pkt) ⟨p, stop⟩ records final :=
      (SomeipTlvCursor.readBy pkt).exists_walk trivial
    rw [SomeipTlvCursor.records_of_walk walk] at found
    have above := (SomeipTlvCursor.valueInside_of_walk walk record (List.mem_of_getElem? found)
      value here).1
    dsimp only at above ⊢
    rw [here, Option.elim_some, Nat.mod_eq_of_lt (offset value here)]
    omega

end Rows

/-! ### Members of a region -/

section Region

variable {pkt : Bytes} {cursor final : SomeipTlvCursor} {records : List SomeipTlvRecord}
  (walk : Walk (SomeipTlvCursor.next pkt) cursor records final)

include walk

/-- Where a member starts, by the members in front of it. -/
theorem value_of_walk {k : Nat} {record : SomeipTlvRecord} (found : records[k]? = some record)
    {front : List (Bool × SomeipTlvItem)}
    (before : (records.map (SomeipTlvRecord.item pkt)).take k = front.map Prod.snd) :
    record.value = if (record.item pkt).value = [] then none else
      some (cursor.p + (front.flatMap fun item => item.2.encode item.1).length +
        (record.item pkt).header) := by
  have contiguous := contiguous_of_walk walk
  have empty := contiguous.value_eq_nil_iff pkt (List.mem_of_getElem? found)
  rw [contiguous.value_eq found, contiguous.sum_sizes pkt, before, length_flatMap_encode]
  exact if_congr empty.symm rfl rfl

theorem addressable_of_small
    (small : ∀ k record, records[k]? = some record →
      k < 2 ^ 32 ∧ ∀ value, record.value = some value → value - cursor.p < 2 ^ 32) :
    Addressable (cursor.region pkt) := by
  intro front member more legal split
  have encodes := (encodes_someipTlvGrammar_iff _ _).mpr ⟨front ++ [member], rfl, legal, rfl⟩
  obtain ⟨later, taken⟩ := (SomeipTlvCursor.readBy pkt).prefix_of_encodes encodes walk trivial split
  rw [List.map_append, List.append_assoc] at taken
  have length : (front.map Prod.snd).length = front.length := List.length_map _
  have here : (records.map (SomeipTlvRecord.item pkt))[front.length]? = some member.2 := by
    rw [← taken, List.getElem?_append_right (Nat.le_of_eq length), length, Nat.sub_self]
    rfl
  have before : (records.map (SomeipTlvRecord.item pkt)).take front.length =
        front.map Prod.snd := by
    rw [← taken, ← length, List.take_left]
  rw [List.getElem?_map, Option.map_eq_some_iff] at here
  obtain ⟨record, found, same⟩ := here
  obtain ⟨index, offset⟩ := small _ record found
  refine ⟨index, ?_⟩
  intro nonempty
  have value := value_of_walk walk found before
  rw [same, if_neg nonempty] at value
  have := offset _ value
  omega

theorem small_of_addressable {marked : List (Bool × SomeipTlvItem)}
    (same : records.map (SomeipTlvRecord.item pkt) = marked.map Prod.snd)
    (legal : ∀ item ∈ marked, item.2.Legal)
    (region : cursor.region pkt =
      marked.flatMap (fun item => item.2.encode item.1) ++ final.region pkt)
    (addressable : Addressable (cursor.region pkt)) {k : Nat} {record : SomeipTlvRecord}
    (found : records[k]? = some record) :
    k < 2 ^ 32 ∧ ∀ value, record.value = some value → value - cursor.p < 2 ^ 32 := by
  have item := congrArg (·[k]?) same
  simp only [List.getElem?_map, found, Option.map_some] at item
  obtain ⟨member, here, item⟩ := Option.map_eq_some_iff.mp item.symm
  obtain ⟨below, rfl⟩ := List.getElem?_eq_some_iff.mp here
  have parts : marked = (marked.take k ++ [marked[k]]) ++ marked.drop (k + 1) := by
    rw [List.append_assoc, List.singleton_append, ← List.drop_eq_getElem_cons below,
      List.take_append_drop]
  have before : (records.map (SomeipTlvRecord.item pkt)).take k =
      (marked.take k).map Prod.snd := by
    rw [same, List.map_take]
  have split := region
  rw [parts, List.flatMap_append, List.append_assoc] at split
  obtain ⟨index, offset⟩ := addressable (marked.take k) marked[k] _
    (fun item member => legal item (by rw [parts]; exact List.mem_append_left _ member)) split
  rw [List.length_take_of_le (Nat.le_of_lt below)] at index
  refine ⟨index, ?_⟩
  intro value start
  rw [value_of_walk walk found before] at start
  split at start
  · contradiction
  · next nonempty =>
    cases start
    rw [← item] at nonempty ⊢
    have := offset nonempty
    omega

end Region

/-- The unbounded walk, the bounded loop and the members of a region. -/
theorem exists_members (pkt : Bytes) (cursor : SomeipTlvCursor) :
    ∃ (records : List SomeipTlvRecord) (final : SomeipTlvCursor)
      (marked : List (Bool × SomeipTlvItem)),
      Walk (SomeipTlvCursor.next pkt) cursor records final ∧
      (∀ item ∈ marked, item.2.Legal) ∧
      records.map (SomeipTlvRecord.item pkt) = marked.map Prod.snd ∧
      cursor.region pkt =
        marked.flatMap (fun item => item.2.encode item.1) ++ final.region pkt ∧
      SomeipTlvCursor.NoMember (final.region pkt) := by
  have readBy := SomeipTlvCursor.readBy pkt
  obtain ⟨records, final, walk⟩ := readBy.exists_walk trivial
  obtain ⟨front, consumed, encodes, ending⟩ := readBy.consumed_of_walk walk trivial
  rcases ending with ⟨same, region, stuck⟩ | ⟨item, text, padding, closing, -⟩
  · obtain ⟨marked, rfl, legal, rfl⟩ := (encodes_someipTlvGrammar_iff _ _).mp encodes
    exact ⟨records, final, marked, walk, legal, same, region,
      SomeipTlvCursor.noMember_of_stuck stuck⟩
  · exact closing.elim

theorem emitLocates_iff (pid ruleId : Nat) (pkt : Bytes) (cursor : SomeipTlvCursor) :
    EmitLocates pid ruleId pkt cursor.p cursor.stop ↔ Addressable (cursor.region pkt) := by
  obtain ⟨records, final, marked, walk, legal, same, region, -⟩ := exists_members pkt cursor
  rw [emitLocates_iff_small]
  change (∀ k record, (cursor.records pkt)[k]? = some record → _) ↔ _
  rw [SomeipTlvCursor.records_of_walk walk]
  constructor
  · exact addressable_of_small walk
  · intro addressable k record found
    exact small_of_addressable walk same legal region addressable found

/-- The cursor decodes exactly the member grammar: the text of any members as
these, and any region as the members at its front.  `SomeipTlvKind` numbers and
locates the members as long as numbers and offsets fit 32 bits. -/
theorem someipTlv_decodes (pid ruleId : Nat) (pkt : Bytes) (cursor : SomeipTlvCursor) :
    (∃ (records : List SomeipTlvRecord) (final : SomeipTlvCursor)
      (marked : List (Bool × SomeipTlvItem)),
      Walk (SomeipTlvCursor.next pkt) cursor records final ∧
      cursor.records pkt = records ∧
      (∀ given : List (Bool × SomeipTlvItem), (∀ item ∈ given, item.2.Legal) →
        cursor.region pkt = given.flatMap (fun item => item.2.encode item.1) →
        records.map (SomeipTlvRecord.item pkt) = given.map Prod.snd) ∧
      (∀ record ∈ records, cursor.ValueInside record) ∧
      Contiguous final.p cursor.p records ∧
      (∀ item ∈ marked, item.2.Legal) ∧
      records.map (SomeipTlvRecord.item pkt) = marked.map Prod.snd ∧
      cursor.region pkt =
        marked.flatMap (fun item => item.2.encode item.1) ++ final.region pkt ∧
      SomeipTlvCursor.NoMember (final.region pkt)) ∧
    (EmitLocates pid ruleId pkt cursor.p cursor.stop ↔ Addressable (cursor.region pkt)) := by
  refine ⟨?_, emitLocates_iff pid ruleId pkt cursor⟩
  obtain ⟨records, final, marked, walk, legal, same, region, none⟩ := exists_members pkt cursor
  refine ⟨records, final, marked, walk, SomeipTlvCursor.records_of_walk walk, ?_,
    SomeipTlvCursor.valueInside_of_walk walk, contiguous_of_walk walk, legal, same, region, none⟩
  intro given givenLegal split
  have readBy := SomeipTlvCursor.readBy pkt
  have encodes := (encodes_someipTlvGrammar_iff _ _).mpr ⟨given, rfl, givenLegal, rfl⟩
  obtain ⟨taken, last, again, all⟩ := readBy.walk_of_encodes encodes readBy.walk_of_nil trivial
    (by rw [split, List.append_nil])
  rw [walk.unique again, all, List.append_nil]

/-- A whole buffer as region. -/
theorem addressable_of_emitLocates {pid ruleId : Nat} {region : Bytes}
    (locates : EmitLocates pid ruleId region 0 region.length) : Addressable region := by
  have addressable := (emitLocates_iff pid ruleId region ⟨0, region.length⟩).mp locates
  have whole : SomeipTlvCursor.region region ⟨0, region.length⟩ = region := readBytes_self region
  rwa [whole] at addressable

/-- A member whose value starts too far behind the members in front of it. -/
theorem not_addressable_of_far {front : List (Bool × SomeipTlvItem)}
    {member : Bool × SomeipTlvItem} (legal : ∀ item ∈ front ++ [member], item.2.Legal)
    (nonempty : member.2.value ≠ [])
    (far : 2 ^ 32 ≤ (front.flatMap fun item => item.2.encode item.1).length + member.2.header) :
    ¬ Addressable ((front ++ [member]).flatMap fun item => item.2.encode item.1) := by
  intro addressable
  have located := (addressable front member [] legal (List.append_nil _).symm).2 nonempty
  omega

/-- The longest member there is. -/
def longMember : SomeipTlvItem := ⟨1, 7, List.replicate (2 ^ 32 - 1) 0⟩

def farMember : SomeipTlvItem := ⟨2, 0, [9]⟩

def farRegion : Bytes :=
  ([(false, longMember)] ++ [(false, farMember)]).flatMap fun item => item.2.encode item.1

theorem length_longMember : longMember.value.length = 2 ^ 32 - 1 := List.length_replicate

theorem legal_longMember : longMember.Legal :=
  ⟨by decide, Nat.lt_of_le_of_lt (Nat.le_of_eq length_longMember) (by decide)⟩

theorem legal_farMember : farMember.Legal := ⟨by decide, rfl⟩

/-- The value of the second member starts at 2^32 + 7; its row says 7. -/
theorem emitLocates_fails : ¬ EmitLocates 0 0 farRegion 0 farRegion.length := by
  intro locates
  refine not_addressable_of_far ?_ ?_ ?_ (addressable_of_emitLocates locates)
  · intro item member
    rw [List.singleton_append, List.mem_pair] at member
    rcases member with rfl | rfl
    · exact legal_longMember
    · exact legal_farMember
  · exact List.cons_ne_nil _ _
  · have header : longMember.header = 6 := rfl
    have header' : farMember.header = 2 := rfl
    rw [List.flatMap_singleton, SomeipTlvItem.length_encode, header, header', length_longMember]
    decide

end Nanotins.Dpar
