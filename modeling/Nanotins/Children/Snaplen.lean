import Nanotins.Children.Ipv4Children
import Nanotins.Children.Ipv6Children
import Nanotins.Children.SomeipSd
import Nanotins.SpecDag.Snaplen

/-!
Contract: decoding a packet that the capture has cut short drops trailing rows
and changes nothing else.

Owns: that each child traversal of the kept bytes reports the first children of
the whole packet, and from it the four decoders (`decode_append`).

Does not own: what an endpoint option decodes to (its bytes may be cut).
-/

namespace Nanotins.Children

open Nanotins.Library Nanotins.Wire Nanotins.SpecDag

/-! ### Regions that end later -/

theorem clampEnd_mono (declared : Nat) {size longer : Nat} (later : size ≤ longer) :
    clampEnd declared size ≤ clampEnd declared longer := by
  rw [clampEnd, clampEnd]
  split_ifs <;> omega

theorem clampEnd_of_le {declared size : Nat} (inside : declared ≤ size) :
    clampEnd declared size = declared :=
  if_pos inside

section Cursor

variable {pkt : Bytes} {cursor behind : TlvCursor} {record : TlvRecord} {stop : Nat}

/-- A region that ends later gives the same record.  The end of an IPv4 option
list exhausts either region. -/
theorem TlvCursor.next_later (later : cursor.stop ≤ stop)
    (taken : cursor.next pkt = some (record, behind)) :
    ∃ ahead, TlvCursor.next pkt { cursor with stop := stop } = some (record, ahead) ∧
      (behind.stop ≤ behind.p ∨ ahead = { behind with stop := stop }) := by
  rw [next_eq] at taken
  rw [next_eq]
  dsimp only
  split_ifs at taken with exhausted pad1 ipv4 eool nop short beyond short' beyond'
  · cases taken
    rw [if_neg (by omega), if_pos pad1]
    exact ⟨_, rfl, .inr rfl⟩
  · cases taken
    rw [if_neg (by omega), if_neg pad1, if_pos ipv4, if_pos eool]
    exact ⟨_, rfl, .inl (Nat.le_refl _)⟩
  · cases taken
    rw [if_neg (by omega), if_neg pad1, if_pos ipv4, if_neg eool, if_pos nop]
    exact ⟨_, rfl, .inr rfl⟩
  · cases taken
    rcases not_or.mp beyond with ⟨wide, fits⟩
    rw [if_neg (by omega), if_neg pad1, if_pos ipv4, if_neg eool, if_neg nop, if_neg (by omega),
      if_neg (not_or.mpr ⟨wide, by omega⟩)]
    exact ⟨_, rfl, .inr rfl⟩
  · cases taken
    rw [if_neg (by omega), if_neg pad1, if_neg ipv4, if_neg (by omega), if_neg (by omega)]
    exact ⟨_, rfl, .inr rfl⟩

theorem TlvCursor.records_later (cursor : TlvCursor) (later : cursor.stop ≤ stop) :
    cursor.records pkt <+: TlvCursor.records pkt { cursor with stop := stop } := by
  refine drain_prefix
    (fun low high : TlvCursor => low.stop ≤ low.p ∨
      low.stop ≤ stop ∧ high = { low with stop := stop }) ?_ (.inr ⟨later, rfl⟩)
    (Nat.sub_le_sub_right later _)
  intro low high record behind below taken
  rcases next_some taken with ⟨forward, inside, sameStop, -, -⟩
  rcases below with exhausted | ⟨earlier, rfl⟩
  · omega
  · rcases next_later earlier taken with ⟨ahead, followed, still⟩
    refine ⟨ahead, followed, still.imp_right fun same => ⟨?_, same⟩⟩
    rwa [sameStop]

/-- A region of kept bytes has the records of that region in the whole packet. -/
theorem TlvCursor.records_append {kept : Bytes} (cut : Bytes) (cursor : TlvCursor)
    (inside : cursor.stop ≤ kept.length) :
    cursor.records (kept ++ cut) = cursor.records kept :=
  eq_of_guarded (fun rd => TlvCursor.recordsM rd cursor) cut (Nat.le_refl _)
    (recordsM_guarded (Nat.zero_le _) inside) (recordsM_guarded (Nat.zero_le _) inside)

/-- A region that the cut has shortened has the first of its records. -/
theorem TlvCursor.records_cut {kept : Bytes} (cut : Bytes) (cursor : TlvCursor)
    (inside : cursor.stop ≤ kept.length) (later : cursor.stop ≤ stop) :
    cursor.records kept <+: TlvCursor.records (kept ++ cut) { cursor with stop := stop } := by
  rw [← records_append cut cursor inside]
  exact records_later cursor later

end Cursor

/-- The segments of a region that ends later. -/
theorem srhSegments_later (segBase nseg : Nat) {stop longer : Nat} (later : stop ≤ longer)
    (remaining i : Nat) :
    srhSegments segBase nseg stop remaining i <+: srhSegments segBase nseg longer remaining i := by
  induction remaining generalizing i with
  | zero => exact List.nil_prefix
  | succ remaining inductionHypothesis =>
      rw [srhSegments]
      split
      · exact List.nil_prefix
      · next s found =>
          have further : repeatAt segBase nseg 16 longer i = some s := by
            rcases repeatAt_some found with ⟨below, rfl, fits⟩
            rw [repeatAt, if_neg (by omega), if_pos (by omega)]
          rw [srhSegments, further]
          exact List.prefix_cons_inj _ |>.mpr (inductionHypothesis (i + 1))

/-- Behind the last segment, where the region ends does not matter. -/
theorem srhSegments_whole {segBase nseg stop longer : Nat} (whole : segBase + nseg * 16 ≤ stop)
    (later : stop ≤ longer) (remaining i : Nat) :
    srhSegments segBase nseg stop remaining i = srhSegments segBase nseg longer remaining i := by
  induction remaining generalizing i with
  | zero => rfl
  | succ remaining inductionHypothesis =>
      have same : repeatAt segBase nseg 16 stop i = repeatAt segBase nseg 16 longer i := by
        rw [repeatAt, repeatAt]
        split
        · rfl
        · rw [if_pos (by omega), if_pos (by omega)]
      rw [srhSegments, srhSegments, same]
      simp only [inductionHypothesis]

theorem sdEntries_later (entries : Nat) {nEntries more : Nat} (later : nEntries ≤ more) :
    sdEntries entries nEntries <+: sdEntries entries more := by
  rcases Nat.exists_eq_add_of_le later with ⟨extra, rfl⟩
  rw [sdEntries, sdEntries, List.range_add, List.map_append]
  exact List.prefix_append _ _

theorem sdOptions_later (pkt : Bytes) (opt : Nat) {optEnd longer : Nat} (later : optEnd ≤ longer) :
    sdOptions pkt optEnd opt <+: sdOptions pkt longer opt := by
  refine drain_prefix (fun low high => low = high) ?_ rfl (Nat.sub_le_sub_right later _)
  rintro state _ behind child rfl taken
  refine ⟨behind, ?_, rfl⟩
  rcases sdNextOption_some taken with ⟨-, -, inside⟩
  rw [sdNextOption_eq] at taken ⊢
  dsimp only at taken ⊢
  split_ifs at taken with short beyond
  cases taken
  dsimp only at inside
  rw [if_neg (by omega), if_neg (by omega)]

theorem sdOptions_append {kept : Bytes} (cut : Bytes) {optEnd opt : Nat}
    (inside : optEnd ≤ kept.length) :
    sdOptions (kept ++ cut) optEnd opt = sdOptions kept optEnd opt :=
  eq_of_guarded (fun rd => sdOptionsM rd optEnd opt) cut (Nat.le_refl _)
    (sdOptionsM_guarded (Nat.zero_le _) inside) (sdOptionsM_guarded (Nat.zero_le _) inside)

/-! ### Traversals of the kept bytes -/

theorem length_le_append (kept cut : Bytes) : kept.length ≤ (kept ++ cut).length := by
  rw [List.length_append]
  exact Nat.le_add_right _ _

section Traversals

variable {kept : Bytes} (cut : Bytes) {off : Nat}

/-- The cut does not clamp a region of kept bytes. -/
theorem clampEnd_append {declared : Nat} (whole : declared ≤ kept.length) :
    clampEnd declared (kept ++ cut).length = clampEnd declared kept.length := by
  rw [clampEnd_of_le whole, clampEnd_of_le (Nat.le_trans whole (length_le_append kept cut))]

theorem forEachIpv4Opt_cut (fits : off + specSize Ipv4Spec.fields ≤ kept.length) :
    forEachIpv4Opt kept off <+: forEachIpv4Opt (kept ++ cut) off := by
  rw [forEachIpv4Opt_eq, forEachIpv4Opt_eq, readUint_append_of_mem cut (by decide) fits]
  dsimp only
  generalize readUint kept off Ipv4Spec.ihl * 4 = hdrLen
  have inside := clampEnd_le (off + hdrLen) kept.length
  have later := clampEnd_mono (off + hdrLen) (length_le_append kept cut)
  split
  · exact List.nil_prefix
  split
  · exact List.nil_prefix
  · rw [if_neg (by omega)]
    apply List.IsPrefix.map
    exact TlvCursor.records_cut cut _ inside later

theorem forEachIpv4Opt_whole (fits : off + specSize Ipv4Spec.fields ≤ kept.length)
    (whole : off + declaredLength kept off .ipv4 ≤ kept.length) :
    forEachIpv4Opt kept off = forEachIpv4Opt (kept ++ cut) off := by
  rw [declaredLength] at whole
  rw [forEachIpv4Opt_eq, forEachIpv4Opt_eq, readUint_append_of_mem cut (by decide) fits]
  dsimp only
  rw [clampEnd_append cut whole, TlvCursor.records_append cut _ (clampEnd_le _ _)]

theorem forEachOpt_cut (fits : off + specSize Ipv6ExtOptSpec.fields ≤ kept.length) :
    forEachOpt kept off <+: forEachOpt (kept ++ cut) off := by
  rw [forEachOpt_eq, forEachOpt_eq, readUint_append_of_mem cut (by decide) fits]
  dsimp only
  generalize (readUint kept off Ipv6ExtOptSpec.hdrExtLen + 1) * 8 = hdrLen
  have inside := clampEnd_le (off + hdrLen) kept.length
  have later := clampEnd_mono (off + hdrLen) (length_le_append kept cut)
  split
  · exact List.nil_prefix
  · rw [if_neg (by omega)]
    apply List.IsPrefix.map
    exact TlvCursor.records_cut cut _ inside later

theorem forEachOpt_whole (fits : off + specSize Ipv6ExtOptSpec.fields ≤ kept.length)
    (whole : off + (readUint kept off Ipv6ExtOptSpec.hdrExtLen + 1) * 8 ≤ kept.length) :
    forEachOpt kept off = forEachOpt (kept ++ cut) off := by
  rw [forEachOpt_eq, forEachOpt_eq, readUint_append_of_mem cut (by decide) fits]
  dsimp only
  rw [clampEnd_append cut whole, TlvCursor.records_append cut _ (clampEnd_le _ _)]

theorem forEachSrhChild_cut (fits : off + specSize Ipv6SrhSpec.fields ≤ kept.length) :
    forEachSrhChild kept off <+: forEachSrhChild (kept ++ cut) off := by
  rw [forEachSrhChild_eq, forEachSrhChild_eq, readUint_append_of_mem cut (by decide) fits,
    readUint_append_of_mem cut (by decide) fits]
  dsimp only
  generalize (readUint kept off Ipv6SrhSpec.hdrExtLen + 1) * 8 = srhLen
  generalize readUint kept off Ipv6SrhSpec.lastEntry + 1 = nseg
  have inside := clampEnd_le (off + srhLen) kept.length
  have later := clampEnd_mono (off + srhLen) (length_le_append kept cut)
  split
  · rw [if_pos (by omega), srhSegments_whole (by omega) later, List.prefix_append_right_inj]
    apply List.IsPrefix.map
    exact TlvCursor.records_cut cut _ inside later
  · have segments := srhSegments_later (off + 8) nseg later nseg 0
    split
    · exact segments.trans (List.prefix_append _ _)
    · exact segments

theorem forEachSrhChild_whole (fits : off + specSize Ipv6SrhSpec.fields ≤ kept.length)
    (whole : off + (readUint kept off Ipv6SrhSpec.hdrExtLen + 1) * 8 ≤ kept.length) :
    forEachSrhChild kept off = forEachSrhChild (kept ++ cut) off := by
  rw [forEachSrhChild_eq, forEachSrhChild_eq, readUint_append_of_mem cut (by decide) fits,
    readUint_append_of_mem cut (by decide) fits]
  dsimp only
  rw [clampEnd_append cut whole, TlvCursor.records_append cut _ (clampEnd_le _ _)]

theorem forEachSdChild_cut (fits : off + specSize SomeipSpec.fields ≤ kept.length) :
    forEachSdChild kept off <+: forEachSdChild (kept ++ cut) off := by
  rw [forEachSdChild_eq, forEachSdChild_eq, readUint_append_of_mem cut (by decide) fits,
    readUint_append_of_mem cut (by decide) fits, readUint_append_of_mem cut (by decide) fits]
  dsimp only
  have whole := length_le_append kept cut
  have inside := clampEnd_le (off + 8 + readUint kept off SomeipSpec.length) kept.length
  have later := clampEnd_mono (off + 8 + readUint kept off SomeipSpec.length) whole
  generalize clampEnd (off + 8 + readUint kept off SomeipSpec.length) kept.length = stop
    at inside later ⊢
  generalize clampEnd (off + 8 + readUint kept off SomeipSpec.length) (kept ++ cut).length = longer
    at later ⊢
  have someip : off + kSomeipHeaderLen ≤ kept.length := fits
  rw [if_neg (Nat.not_lt.mpr someip), if_neg (Nat.not_lt.mpr (Nat.le_trans someip whole))]
  split
  · exact List.nil_prefix
  by_cases preamble : stop < off + kSomeipHeaderLen + kSomeipSdPreambleLen
  · rw [if_pos preamble]
    exact List.nil_prefix
  rw [if_neg preamble, if_neg (by omega : ¬ longer < off + kSomeipHeaderLen + kSomeipSdPreambleLen)]
  have header : off + kSomeipHeaderLen + specSize SomeipSdHeaderSpec.fields ≤ kept.length :=
    Nat.le_trans (Nat.not_lt.mp preamble) inside
  rw [readUint_append_of_mem cut (by decide) header]
  generalize readUint kept (off + kSomeipHeaderLen) SomeipSdHeaderSpec.entriesLength = entriesLen
  generalize off + kSomeipHeaderLen + kSomeipSdPreambleLen = entries
  split
  · have more := Nat.div_le_div_right (c := kSomeipSdEntrySize)
      (Nat.sub_le_sub_right (clampEnd_mono (entries + entriesLen) later) entries)
    have listed := sdEntries_later entries more
    split
    · exact listed
    · exact listed.trans (List.prefix_append _ _)
  · next options =>
    have optEnd := clampEnd_le
      (entries + entriesLen + 4 + readBig kept (entries + entriesLen) 4) stop
    rw [if_neg (by omega), clampEnd_of_le (by omega : entries + entriesLen ≤ stop),
      clampEnd_of_le (by omega : entries + entriesLen ≤ longer), readBig_append cut (by omega),
      List.prefix_append_right_inj, ← sdOptions_append cut (Nat.le_trans optEnd inside)]
    exact sdOptions_later _ _ (clampEnd_mono _ later)

end Traversals

/-! ### Rows of the kept bytes -/

section Rows

variable {kept : Bytes} (cut : Bytes) {off packetId : Nat} {node target : L2L3Node}

/-- The walk goes on only behind a header that is wholly kept. -/
theorem declaredLength_le (fits : l2l3.Fits kept off node)
    (next : l2l3.Fits kept (l2l3.after kept off node) target) :
    off + declaredLength kept off node ≤ kept.length :=
  (after_le_iff fits).mp (Nat.le_of_add_right_le next)

theorem ipv4VisitRows_cut (fits : l2l3.Fits kept off node) :
    ipv4VisitRows (G := l2l3) some packetId kept (node, off) <+:
      ipv4VisitRows (G := l2l3) some packetId (kept ++ cut) (node, off) := by
  rw [ipv4VisitRows, ipv4VisitRows]
  split
  · next isIpv4 =>
    cases isIpv4
    exact (forEachIpv4Opt_cut cut fits).map _
  · exact List.nil_prefix

theorem ipv4VisitRows_whole (fits : l2l3.Fits kept off node)
    (next : l2l3.Fits kept (l2l3.after kept off node) target) :
    ipv4VisitRows (G := l2l3) some packetId kept (node, off) =
      ipv4VisitRows (G := l2l3) some packetId (kept ++ cut) (node, off) := by
  rw [ipv4VisitRows, ipv4VisitRows]
  split
  · next isIpv4 =>
    cases isIpv4
    exact congrArg (List.map _) (forEachIpv4Opt_whole cut fits (declaredLength_le fits next))
  · rfl

theorem srhRow_append {order : UInt8} {child : SrhChild}
    (member : child ∈ forEachSrhChild kept off) :
    srhRow packetId kept order child = srhRow packetId (kept ++ cut) order child := by
  cases child with
  | segment index ptr =>
      rw [srhRow, srhRow, readBytes_append cut (segment_mem_forEachSrhChild member)]
  | tlv type length => rfl

theorem ipv6VisitRows_cut (order : UInt8) (fits : l2l3.Fits kept off node) :
    ipv6VisitRows (G := l2l3) some packetId kept order (node, off) <+:
      ipv6VisitRows (G := l2l3) some packetId (kept ++ cut) order (node, off) := by
  rw [ipv6VisitRows, ipv6VisitRows]
  split
  · next isRouting =>
    cases isRouting
    rw [List.map_congr_left fun child member => srhRow_append cut member]
    exact (forEachSrhChild_cut cut fits).map _
  split
  · next isOptions =>
    apply List.IsPrefix.map
    rcases isOptions with isHopByHop | isDestOpt
    · cases isHopByHop
      exact forEachOpt_cut cut fits
    · cases isDestOpt
      exact forEachOpt_cut cut fits
  · exact List.nil_prefix

theorem ipv6VisitRows_whole (order : UInt8) (fits : l2l3.Fits kept off node)
    (next : l2l3.Fits kept (l2l3.after kept off node) target) :
    ipv6VisitRows (G := l2l3) some packetId kept order (node, off) =
      ipv6VisitRows (G := l2l3) some packetId (kept ++ cut) order (node, off) := by
  rw [ipv6VisitRows, ipv6VisitRows]
  split
  · next isRouting =>
    cases isRouting
    rw [List.map_congr_left fun child member => srhRow_append cut member]
    exact congrArg (List.map _) (forEachSrhChild_whole cut fits (declaredLength_le fits next))
  split
  · next isOptions =>
    apply congrArg
    rcases isOptions with isHopByHop | isDestOpt
    · cases isHopByHop
      exact forEachOpt_whole cut fits (declaredLength_le fits next)
    · cases isDestOpt
      exact forEachOpt_whole cut fits (declaredLength_le fits next)
  · rfl

theorem ipv6VisitsRows_eq_rowsAlong (pkt : Bytes) (order : UInt8) (visits : List (L2L3Node × Nat)) :
    ipv6VisitsRows (G := l2l3) some packetId pkt order visits =
      rowsAlong (ipv6VisitRows (G := l2l3) some packetId pkt)
        (fun order visit => nextSrhOrder (G := l2l3) some order visit.1) order visits := by
  induction visits generalizing order with
  | nil => rfl
  | cons visit visits inductionHypothesis =>
      rw [ipv6VisitsRows, rowsAlong, inductionHypothesis]

/-- The columns that a cut option shares with the whole one. -/
def notEndpointColumn : SomeipSdChildColumn → Bool
  | .l4proto | .port | .address => false
  | _ => true

theorem sdRow_append {child : SdChild} (member : child ∈ forEachSdChild kept off) :
    (sdRow packetId kept child).restrict notEndpointColumn =
      (sdRow packetId (kept ++ cut) child).restrict notEndpointColumn := by
  cases child with
  | entry index ptr =>
      have field : ∀ field ∈ SomeipSdEntrySpec.fields,
          readField (kept ++ cut) ptr field = readField kept ptr field := fun field spec =>
        readField_append_of_mem cut spec (entry_mem_forEachSdChild member)
      refine Row.restrict_congr rfl fun col own _ => ?_
      cases col with
      | entryPacketId | entryIndex => rfl
      | optPacketId | optionIndex | length | optType | l4proto | port | address => contradiction
      | entryType | index1stOpts | index2ndOpts | numOpt1 | numOpt2 | serviceId | instanceId
      | majorVersion | ttl | minorVersion =>
          dsimp only [sdRow]
          exact (field _ (by decide)).symm
  | option index ptr length type =>
      refine Row.restrict_congr rfl fun col _ kept => ?_
      cases col with
      | l4proto | port | address => contradiction
      | entryPacketId | entryIndex | entryType | index1stOpts | index2ndOpts | numOpt1 | numOpt2
      | serviceId | instanceId | majorVersion | ttl | minorVersion => rfl
      | optPacketId | optionIndex | length | optType => rfl

theorem sdVisitRows_cut (fits : l2l3.Fits kept off node) :
    (sdVisitRows (G := l2l3) some packetId kept (node, off)).map (Row.restrict notEndpointColumn) <+:
      (sdVisitRows (G := l2l3) some packetId (kept ++ cut) (node, off)).map
        (Row.restrict notEndpointColumn) := by
  rw [sdVisitRows, sdVisitRows]
  split
  · next isSomeip =>
    cases isSomeip
    have same : (forEachSdChild kept off).map (Row.restrict notEndpointColumn ∘ sdRow packetId kept) =
        (forEachSdChild kept off).map
          (Row.restrict notEndpointColumn ∘ sdRow packetId (kept ++ cut)) :=
      List.map_congr_left fun child member => sdRow_append cut member
    rw [List.map_map, List.map_map, same]
    exact (forEachSdChild_cut cut fits).map _
  · exact List.nil_prefix

/-- Nothing is walked behind a SOME/IP header. -/
theorem sdVisitRows_whole (edge : l2l3.follow kept off node = some target) :
    sdVisitRows (G := l2l3) some packetId kept (node, off) =
      sdVisitRows (G := l2l3) some packetId (kept ++ cut) (node, off) := by
  rw [sdVisitRows, sdVisitRows]
  split
  · next isSomeip =>
    cases isSomeip
    contradiction
  · rfl

end Rows

/-! ### The decoders -/

section Decoders

variable (kept cut : Bytes) (root : L2L3Node) (packetId : Nat) (tabs : DagTables l2l3)

theorem ipv4Children_append (kids : Ipv4ChildTables) :
    Store.ExtendsOn (fun _ => true)
      (dagDecodePacketWithIpv4Children (G := l2l3) some packetId kept tabs kids root).2
      (dagDecodePacketWithIpv4Children (G := l2l3) some packetId (kept ++ cut) tabs kids root).2 := by
  rw [dagDecodePacketWithIpv4Children_eq, dagDecodePacketWithIpv4Children_eq]
  apply Store.extendsOn_of_prefix
  apply List.IsPrefix.map
  rw [ipv4ChildRows, ipv4ChildRows, ← rowsAlong_flatMap, ← rowsAlong_flatMap]
  apply rowsAlong_walkFrom cut
  · intro _ node off fits
    exact ipv4VisitRows_cut cut fits
  · intro _ node off target fits _ next
    exact ipv4VisitRows_whole cut fits next

theorem ipv6Children_append (kids : Ipv6ChildTables) :
    Store.ExtendsOn (fun _ => true)
      (dagDecodePacketWithChildren (G := l2l3) some packetId kept tabs kids root).2
      (dagDecodePacketWithChildren (G := l2l3) some packetId (kept ++ cut) tabs kids root).2 := by
  rw [dagDecodePacketWithChildren_eq, dagDecodePacketWithChildren_eq]
  apply Store.extendsOn_of_prefix
  apply List.IsPrefix.map
  rw [ipv6ChildRows, ipv6ChildRows, ipv6VisitsRows_eq_rowsAlong, ipv6VisitsRows_eq_rowsAlong]
  apply rowsAlong_walkFrom cut
  · intro order node off fits
    exact ipv6VisitRows_cut cut order fits
  · intro order node off target fits _ next
    exact ipv6VisitRows_whole cut order fits next

theorem someipSd_append (kids : SomeipSdChildTables) :
    Store.ExtendsOn notEndpointColumn
      (dagDecodePacketWithSomeipSd (G := l2l3) some packetId kept tabs kids root).2
      (dagDecodePacketWithSomeipSd (G := l2l3) some packetId (kept ++ cut) tabs kids root).2 := by
  rw [dagDecodePacketWithSomeipSd_eq, dagDecodePacketWithSomeipSd_eq]
  apply Store.extendsOn_of_prefix
  rw [someipSdChildRows, someipSdChildRows, List.map_flatMap, List.map_flatMap,
    ← rowsAlong_flatMap, ← rowsAlong_flatMap]
  apply rowsAlong_walkFrom cut
  · intro _ node off fits
    exact sdVisitRows_cut cut fits
  · intro _ node off target _ edge _
    exact congrArg (List.map _) (sdVisitRows_whole cut edge)

/-- Cutting a packet drops trailing rows of each table and changes nothing else,
up to the endpoint columns of service discovery options. -/
theorem decode_append (kids4 : Ipv4ChildTables) (kids6 : Ipv6ChildTables)
    (kidsSd : SomeipSdChildTables) :
    Store.ExtendsOn (fun _ => true) (dagDecodePacket l2l3 root packetId kept tabs)
        (dagDecodePacket l2l3 root packetId (kept ++ cut) tabs) ∧
      Store.ExtendsOn (fun _ => true)
        (dagDecodePacketWithChildren (G := l2l3) some packetId kept tabs kids6 root).2
        (dagDecodePacketWithChildren (G := l2l3) some packetId (kept ++ cut) tabs kids6 root).2 ∧
      Store.ExtendsOn (fun _ => true)
        (dagDecodePacketWithIpv4Children (G := l2l3) some packetId kept tabs kids4 root).2
        (dagDecodePacketWithIpv4Children (G := l2l3) some packetId (kept ++ cut) tabs kids4 root).2 ∧
      Store.ExtendsOn notEndpointColumn
        (dagDecodePacketWithSomeipSd (G := l2l3) some packetId kept tabs kidsSd root).2
        (dagDecodePacketWithSomeipSd (G := l2l3) some packetId (kept ++ cut) tabs kidsSd root).2 :=
  ⟨dagDecodePacket_append kept cut root packetId tabs,
    ipv6Children_append kept cut root packetId tabs kids6,
    ipv4Children_append kept cut root packetId tabs kids4,
    someipSd_append kept cut root packetId tabs kidsSd⟩

end Decoders

end Nanotins.Children
