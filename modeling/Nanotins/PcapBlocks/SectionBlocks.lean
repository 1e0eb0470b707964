import Mathlib.Algebra.Group.Int.Defs
import Mathlib.Algebra.GroupWithZero.Nat
import Mathlib.Data.List.Forall2
import Mathlib.Data.List.Induction
import Nanotins.Library.Drain
import Nanotins.PcapBlocks.Framing

/-!
Contract: parsing an SHB, IDB or EPB inverts its encoding, options included.

Owns: `parseShb` and `parseIdb` as `pcap_blocks.hpp` computes them, the list of
options that the cursor gives, the encoding of option areas and of the three
block bodies, and the round trip `parseBlocks_encode`.

Does not own: where a scan finds the blocks.
-/

namespace Nanotins.PcapBlocks

open Nanotins.Library

/-! ### The parsers -/

structure ShbView where
  major : Nat
  minor : Nat
  sectionLength : Int
  options : Options
deriving DecidableEq, Repr

structure IdbView where
  linkType : Nat
  snaplen : Nat
  tsResol : UInt8
  options : Options
deriving DecidableEq, Repr

def rd64 (file : Bytes) (off : Nat) (le : Bool) : Nat :=
  if le then readLittle file off 8 else readBig file off 8

/-- The options that the cursor gives, in order. -/
def optionList (file : Bytes) (options : Options) : List BlockOption :=
  drain (nextOption file) options.size options

def parseShb (file : Bytes) (ref : BlockRef) : Option ShbView :=
  if ref.kind ≠ .shb ∨ file.length < ref.fileOffset + ref.length ∨ ref.length < 28 then none
  else
    let body := ref.fileOffset + 8
    let le := ref.littleEndian
    let optOff := 8 + 16
    some {
      major := rd16 file (body + 4) le
      minor := rd16 file (body + 6) le
      sectionLength := (BitVec.ofNat 64 (rd64 file (body + 8) le)).toInt
      options := ⟨some (ref.fileOffset + optOff), sub32 (sub32 ref.length optOff) 4, le⟩ }

/-- The `if_tsresol` scan: the last option of code 9 with a value wins. -/
def idbTsResol (file : Bytes) (options : Options) : UInt8 :=
  (optionList file options).foldl
    (fun resol opt => if opt.code = 9 ∧ 1 ≤ opt.length then byteAt file opt.value else resol) 6

def parseIdb (file : Bytes) (ref : BlockRef) : Option IdbView :=
  if ref.kind ≠ .idb ∨ file.length < ref.fileOffset + ref.length then none
  else
    let base := ref.fileOffset
    let le := ref.littleEndian
    let magic := rd32 file base true
    -- the synthetic IDB over a legacy global header
    if ref.length = 24 ∧ isPcapMagic magic then
      let nanos := magic = kPcapMagicNanosLE ∨ magic = kPcapMagicNanosBE
      some {
        linkType := rd32 file (base + 20) le % 2 ^ 16
        snaplen := rd32 file (base + 16) le
        tsResol := if nanos then 9 else 6
        options := ⟨none, 0, le⟩ }
    else if ref.length < 20 then none
    else
      let body := base + 8
      let optOff := 8 + 8
      let options : Options := ⟨some (base + optOff), sub32 (sub32 ref.length optOff) 4, le⟩
      some {
        linkType := rd16 file body le
        snaplen := rd32 file (body + 4) le
        tsResol := idbTsResol file options
        options := options }

/-! ### Option areas -/

/-- One option as it is written. -/
structure WireOption where
  code : Nat
  value : Bytes
  padding : Bytes
  code_ne_zero : code ≠ 0
  code_lt : code < 2 ^ 16
  length_lt : value.length < 2 ^ 16
  padded : value.length + padding.length = roundUp4 value.length

/-- An option list is closed by the end of the block, or by `opt_endofopt` and
whatever follows it. -/
inductive OptionsClose where
  | blockEnd
  | endOfOpt (trailing : Bytes)

structure OptionArea where
  options : List WireOption
  close : OptionsClose

def WireOption.encode (le : Bool) (opt : WireOption) : Bytes :=
  u16 le opt.code ++ (u16 le opt.value.length ++ (opt.value ++ opt.padding))

def OptionsClose.encode (le : Bool) : OptionsClose → Bytes
  | .blockEnd => []
  | .endOfOpt trailing => u16 le 0 ++ (u16 le 0 ++ trailing)

def OptionArea.encode (le : Bool) (area : OptionArea) : Bytes :=
  area.options.flatMap (WireOption.encode le) ++ area.close.encode le

def OptionsClose.size : OptionsClose → Nat
  | .blockEnd => 0
  | .endOfOpt trailing => 4 + trailing.length

/-- The bytes an area takes, in either byte order. -/
def OptionArea.size (area : OptionArea) : Nat :=
  (area.options.map fun opt => 4 + pad4 opt.value.length).sum + area.close.size

@[simp] theorem WireOption.length_encode (le : Bool) (opt : WireOption) :
    (opt.encode le).length = 4 + pad4 opt.value.length := by
  have padded := opt.padded
  have bounded := opt.length_lt
  unfold roundUp4 at padded
  simp only [WireOption.encode, List.length_append, length_u16, pad4]
  omega

@[simp] theorem OptionsClose.length_encode (le : Bool) (close : OptionsClose) :
    (close.encode le).length = close.size := by
  cases close with
  | blockEnd => rfl
  | endOfOpt trailing =>
      simp only [OptionsClose.encode, OptionsClose.size, List.length_append, length_u16]
      omega

@[simp] theorem OptionArea.length_encode (le : Bool) (area : OptionArea) :
    (area.encode le).length = area.size := by
  simp only [OptionArea.encode, OptionArea.size, List.length_append, List.length_flatMap,
    WireOption.length_encode, OptionsClose.length_encode]

/-- The options of an area that starts at `data`. -/
def optionRefs : Nat → List WireOption → List BlockOption
  | _, [] => []
  | data, opt :: opts =>
      ⟨opt.code, opt.value.length, data + 4⟩ ::
        optionRefs (data + (4 + pad4 opt.value.length)) opts

section Cursor

variable {file : Bytes} {data size : Nat} {le : Bool}

/-- The cursor takes an option where one stands. -/
theorem nextOption_of_standsAt {opt : WireOption} (stands : StandsAt file data (opt.encode le))
    (fits : 4 + pad4 opt.value.length ≤ size) :
    nextOption file ⟨some data, size, le⟩ =
      some (⟨opt.code, opt.value.length, data + 4⟩,
        ⟨some (data + (4 + pad4 opt.value.length)), size - (4 + pad4 opt.value.length), le⟩) := by
  have code := rd16_of_standsAt stands.left opt.code_lt
  have length := stands.right.left
  rw [length_u16] at length
  have lengthRead := rd16_of_standsAt length opt.length_lt
  rw [nextOption_of_some rfl]
  dsimp only
  rw [code, lengthRead, if_neg (by omega), if_neg opt.code_ne_zero, if_neg (by omega)]

/-- The cursor stops where an area closes. -/
theorem nextOption_of_close {close : OptionsClose} (stands : StandsAt file data (close.encode le)) :
    nextOption file ⟨some data, close.size, le⟩ = none := by
  rw [nextOption_of_some rfl]
  cases close with
  | blockEnd => exact if_pos (Nat.zero_lt_succ 3)
  | endOfOpt trailing =>
      have code := rd16_of_standsAt stands.left (by decide)
      dsimp only
      rw [code]
      split
      · rfl
      · exact if_pos rfl

/-- Iterating the cursor over an encoded area gives exactly its options. -/
theorem optionList_encode {area : OptionArea} (stands : StandsAt file data (area.encode le)) :
    optionList file ⟨some data, area.size, le⟩ = optionRefs data area.options := by
  rcases area with ⟨options, close⟩
  have decreases : ∀ {state behind : Options} {opt : BlockOption},
      nextOption file state = some (opt, behind) → behind.size < state.size := by
    intro state behind opt taken
    rcases nextOption_some taken with ⟨_, -, -, -, fits, rfl⟩
    dsimp only
    omega
  unfold optionList
  induction options generalizing data with
  | nil =>
      have closed := nextOption_of_close stands
      rw [← Nat.zero_add close.size] at closed
      exact drain_of_none _ closed
  | cons opt options inductionHypothesis =>
      change StandsAt file data ((opt.encode le ++ _) ++ _) at stands
      rw [List.append_assoc] at stands
      have behind := stands.right
      rw [WireOption.length_encode] at behind
      have whole : OptionArea.size ⟨opt :: options, close⟩ =
          4 + pad4 opt.value.length + OptionArea.size ⟨options, close⟩ := by
        simp only [OptionArea.size, List.map_cons, List.sum_cons, Nat.add_assoc]
      have taken := nextOption_of_standsAt stands.left
        (Nat.le_add_right _ (OptionArea.size ⟨options, close⟩))
      have unroll := @drain_measure _ _ (nextOption file)
        ⟨some data, OptionArea.size ⟨opt :: options, close⟩, le⟩ Options.size decreases
      rw [whole] at unroll ⊢
      rw [taken] at unroll
      rw [unroll, Nat.add_sub_cancel_left]
      exact congrArg _ (inductionHypothesis behind)

end Cursor

/-! ### Values of options -/

/-- `ref` points at the value of `opt`. -/
def Describes (file : Bytes) (ref : BlockOption) (opt : WireOption) : Prop :=
  ref.code = opt.code ∧ ref.length = opt.value.length ∧ StandsAt file ref.value opt.value

theorem optionRefs_describe {file : Bytes} {data : Nat} {le : Bool} {opts : List WireOption}
    (stands : StandsAt file data (opts.flatMap (WireOption.encode le))) :
    List.Forall₂ (Describes file) (optionRefs data opts) opts := by
  induction opts generalizing data with
  | nil => exact .nil
  | cons opt opts inductionHypothesis =>
      rw [List.flatMap_cons] at stands
      have value := stands.left.right.right.left
      have behind := stands.right
      rw [length_u16, length_u16] at value
      rw [WireOption.length_encode] at behind
      exact .cons ⟨rfl, rfl, value⟩ (inductionHypothesis behind)

/-- The options that iterating the cursor gives, as codes and values. -/
def optionValues (file : Bytes) (options : Options) : List (Nat × Bytes) :=
  (optionList file options).map fun opt => (opt.code, readBytes file opt.value opt.length)

/-- A scan in which every match overwrites the result ends with the last one. -/
theorem foldl_ite_eq_getLast? {α β : Type} (hit : α → Prop) [DecidablePred hit] (value : α → β)
    (initial : β) (items : List α) :
    items.foldl (fun result item => if hit item then value item else result) initial =
      ((items.filter hit).getLast?.map value).getD initial := by
  induction items using List.reverseRecOn with
  | nil => rfl
  | append_singleton items item inductionHypothesis =>
      rw [List.foldl_append, List.foldl_cons, List.foldl_nil, inductionHypothesis,
        List.filter_append]
      by_cases matched : hit item <;> simp [matched]

/-- The value of the last option that `hit` selects. -/
def lastOption {α : Type} (hit : WireOption → Prop) [DecidablePred hit] (value : Bytes → α)
    (absent : α) (opts : List WireOption) : α :=
  ((opts.filter hit).getLast?.map fun opt => value opt.value).getD absent

/-- The `if_tsresol` of an interface: a first byte of a non-empty value. -/
def OptionArea.tsResol (area : OptionArea) : UInt8 :=
  lastOption (fun opt => opt.code = 9 ∧ 1 ≤ opt.value.length) (fun value => byteAt value 0) 6
    area.options

/-- The `epb_flags` of a packet: the first four bytes of a value. -/
def OptionArea.flags (le : Bool) (area : OptionArea) : Nat :=
  lastOption (fun opt => opt.code = 2 ∧ 4 ≤ opt.value.length) (fun value => rd32 value 0 le) 0
    area.options

section Values

variable {file : Bytes} {data : Nat} {le : Bool} {area : OptionArea}

theorem optionValues_encode (stands : StandsAt file data (area.encode le)) :
    optionValues file ⟨some data, area.size, le⟩ =
      area.options.map fun opt => (opt.code, opt.value) := by
  rw [optionValues, optionList_encode stands, ← List.forall₂_eq_eq_eq]
  refine List.rel_map ?_ (optionRefs_describe stands.left)
  rintro ref opt ⟨code, length, value⟩
  dsimp only
  rw [code, length, value.readBytes_eq]

/-- A scan over the cursor is a scan over the encoded options. -/
theorem foldl_optionList_encode {β : Type} (stands : StandsAt file data (area.encode le))
    {step : β → BlockOption → β} {wire : β → WireOption → β}
    (agree : ∀ result ref opt, Describes file ref opt → step result ref = wire result opt)
    (initial : β) :
    (optionList file ⟨some data, area.size, le⟩).foldl step initial =
      area.options.foldl wire initial := by
  rw [optionList_encode stands]
  refine List.rel_foldl ?_ rfl (optionRefs_describe stands.left)
  rintro result _ rfl ref opt describes
  exact agree result ref opt describes

theorem idbTsResol_encode (stands : StandsAt file data (area.encode le)) :
    idbTsResol file ⟨some data, area.size, le⟩ = area.tsResol := by
  refine (foldl_optionList_encode stands ?_ _).trans (foldl_ite_eq_getLast? _ _ _ _)
  rintro result ref opt ⟨code, length, value⟩
  rw [code, length]
  split
  next hit => exact value.byteAt_eq hit.2
  · rfl

/-- The `epb_flags` scan folds over the options of the cursor. -/
theorem epbFlagsLoop_eq_foldl (file : Bytes) (le : Bool) (fuel : Nat) (cursor : Options)
    (flags : Nat) :
    epbFlagsLoop file le fuel cursor flags =
      (drain (nextOption file) fuel cursor).foldl
        (fun flags opt => if opt.code = 2 ∧ 4 ≤ opt.length then rd32 file opt.value le else flags)
        flags := by
  induction fuel generalizing cursor flags with
  | zero => rfl
  | succ fuel inductionHypothesis =>
      rw [epbFlagsLoop_succ]
      cases step : nextOption file cursor with
      | none => rw [drain_of_none _ step]; rfl
      | some taken =>
          rw [drain_of_some _ step, List.foldl_cons]
          exact inductionHypothesis _ _

theorem rd32_of_standsAt_long {off : Nat} {bytes : Bytes} (stands : StandsAt file off bytes)
    (long : 4 ≤ bytes.length) : rd32 file off le = rd32 bytes 0 le := by
  have agree : ∀ i < 4, byteAt file (off + i) = byteAt bytes (0 + i) := fun i below => by
    rw [stands.byteAt_eq (by omega), Nat.zero_add]
  cases le
  · exact readBig_congr agree
  · exact readLittle_congr agree

theorem epbFlags_encode (stands : StandsAt file data (area.encode le)) :
    epbFlags file le ⟨some data, area.size, le⟩ = area.flags le := by
  refine (epbFlagsLoop_eq_foldl file le _ _ _).trans
    ((foldl_optionList_encode stands ?_ _).trans (foldl_ite_eq_getLast? _ _ _ _))
  rintro result ref opt ⟨code, length, value⟩
  rw [code, length]
  split
  next hit => exact rd32_of_standsAt_long value hit.2
  · rfl

end Values

/-! ### Contents of blocks -/

structure ShbContent where
  major : Nat
  minor : Nat
  sectionLength : Int
  options : OptionArea
  major_lt : major < 2 ^ 16
  minor_lt : minor < 2 ^ 16
  sectionLength_ge : -2 ^ 63 ≤ sectionLength
  sectionLength_lt : sectionLength < 2 ^ 63
  total_lt : 28 + options.size < 2 ^ 32

structure IdbContent where
  linkType : Nat
  reserved : Nat
  snaplen : Nat
  options : OptionArea
  linkType_lt : linkType < 2 ^ 16
  snaplen_lt : snaplen < 2 ^ 32
  total_lt : 20 + options.size < 2 ^ 32

structure EpbContent where
  interfaceId : Nat
  timestamp : Nat
  origlen : Nat
  data : Bytes
  padding : Bytes
  options : OptionArea
  interfaceId_lt : interfaceId < 2 ^ 32
  timestamp_lt : timestamp < 2 ^ 64
  origlen_lt : origlen < 2 ^ 32
  padded : data.length + padding.length = roundUp4 data.length
  total_lt : 32 + roundUp4 data.length + options.size < 2 ^ 32

def ShbContent.body (le : Bool) (shb : ShbContent) : Bytes :=
  u32 le kPcapngByteOrderMagic ++ (u16 le shb.major ++ (u16 le shb.minor ++
    (u64 le (BitVec.ofInt 64 shb.sectionLength).toNat ++ shb.options.encode le)))

def IdbContent.body (le : Bool) (idb : IdbContent) : Bytes :=
  u16 le idb.linkType ++ (u16 le idb.reserved ++ (u32 le idb.snaplen ++ idb.options.encode le))

def EpbContent.body (le : Bool) (epb : EpbContent) : Bytes :=
  u32 le epb.interfaceId ++ (u32 le (epb.timestamp / 2 ^ 32) ++
    (u32 le (epb.timestamp % 2 ^ 32) ++ (u32 le epb.data.length ++ (u32 le epb.origlen ++
      (epb.data ++ (epb.padding ++ epb.options.encode le))))))

/-- What parsing an SHB gives back. -/
structure ShbContent.ParsedAs (shb : ShbContent) (file : Bytes) (view : ShbView) : Prop where
  major : view.major = shb.major
  minor : view.minor = shb.minor
  sectionLength : view.sectionLength = shb.sectionLength
  options : optionValues file view.options =
    shb.options.options.map fun opt => (opt.code, opt.value)

structure IdbContent.ParsedAs (idb : IdbContent) (file : Bytes) (view : IdbView) : Prop where
  linkType : view.linkType = idb.linkType
  snaplen : view.snaplen = idb.snaplen
  tsResol : view.tsResol = idb.options.tsResol
  options : optionValues file view.options =
    idb.options.options.map fun opt => (opt.code, opt.value)

structure EpbContent.ParsedAs (epb : EpbContent) (le : Bool) (file : Bytes) (view : EpbView) :
    Prop where
  interfaceId : view.interfaceId = epb.interfaceId
  tsRaw : view.tsRaw = epb.timestamp
  caplen : view.caplen = epb.data.length
  origlen : view.origlen = epb.origlen
  payload : StandsAt file view.payloadFileOffset epb.data
  epbFlags : view.epbFlags = epb.options.flags le
  options : optionValues file view.options =
    epb.options.options.map fun opt => (opt.code, opt.value)

section Parse

variable {file : Bytes} {pos : Nat} {le : Bool}

theorem ShbContent.length_body (le : Bool) (shb : ShbContent) :
    (shb.body le).length = 16 + shb.options.size := by
  simp only [ShbContent.body, List.length_append, length_u16, length_u32, length_u64,
    OptionArea.length_encode]
  omega

theorem IdbContent.length_body (le : Bool) (idb : IdbContent) :
    (idb.body le).length = 8 + idb.options.size := by
  simp only [IdbContent.body, List.length_append, length_u16, length_u32,
    OptionArea.length_encode]
  omega

theorem EpbContent.length_body (le : Bool) (epb : EpbContent) :
    (epb.body le).length = 20 + roundUp4 epb.data.length + epb.options.size := by
  have padded := epb.padded
  simp only [EpbContent.body, List.length_append, length_u32, OptionArea.length_encode]
  omega

theorem rd64_of_standsAt {off value : Nat} (stands : StandsAt file off (u64 le value))
    (bounded : value < 2 ^ 64) : rd64 file off le = value := by
  have fits : value % 256 ^ 8 = value := Nat.mod_eq_of_lt bounded
  cases le
  · exact stands.readBig_eq.trans fits
  · exact stands.readLittle_eq.trans fits

/-- The option window behind `optOff` bytes of a block is the encoded area. -/
theorem window_size {length optOff size : Nat} (total : length = optOff + size + 4)
    (bounded : length < 2 ^ 32) : sub32 (sub32 length optOff) 4 = size := by
  unfold sub32
  omega

theorem parseShb_encode {shb : ShbContent}
    (stands : StandsAt file pos (frameBlock le kBlockTypeShb (shb.body le))) :
    ∃ view, parseShb file (frameRef le pos kBlockTypeShb (shb.body le)) = some view ∧
      shb.ParsedAs file view := by
  have inside := stands.length_le
  have total : (frameRef le pos kBlockTypeShb (shb.body le)).length =
      8 + 16 + shb.options.size + 4 := by
    rw [length_frameRef, shb.length_body]
    omega
  have bounded := shb.total_lt
  have body := standsAt_body stands
  have major : StandsAt file (pos + 8 + 4) (u16 le shb.major) := by
    simpa only [length_u32] using body.right.left
  have minor : StandsAt file (pos + 8 + 6) (u16 le shb.minor) := by
    simpa only [length_u32, length_u16, Nat.add_assoc] using body.right.right.left
  have sectionLength : StandsAt file (pos + 8 + 8)
      (u64 le (BitVec.ofInt 64 shb.sectionLength).toNat) := by
    simpa only [length_u32, length_u16, Nat.add_assoc] using body.right.right.right.left
  have options : StandsAt file (pos + (8 + 16)) (shb.options.encode le) := by
    simpa only [length_u32, length_u16, length_u64, Nat.add_assoc] using
      body.right.right.right.right
  refine ⟨_, if_neg ?_, ?_⟩
  · rintro (kind | cut | short)
    · exact kind rfl
    · exact absurd cut (Nat.not_lt.mpr inside)
    · omega
  · constructor
    · exact rd16_of_standsAt major shb.major_lt
    · exact rd16_of_standsAt minor shb.minor_lt
    · show (BitVec.ofNat 64 (rd64 file (pos + 8 + 8) le)).toInt = _
      rw [rd64_of_standsAt sectionLength (BitVec.isLt _), BitVec.ofNat_toNat, BitVec.setWidth_eq]
      exact BitVec.toInt_ofInt_eq_self (by decide) shb.sectionLength_ge shb.sectionLength_lt
    · dsimp only
      rw [window_size total (by omega)]
      exact optionValues_encode options

theorem parseIdb_encode {idb : IdbContent}
    (stands : StandsAt file pos (frameBlock le kBlockTypeIdb (idb.body le))) :
    ∃ view, parseIdb file (frameRef le pos kBlockTypeIdb (idb.body le)) = some view ∧
      idb.ParsedAs file view := by
  have inside := stands.length_le
  have total : (frameRef le pos kBlockTypeIdb (idb.body le)).length =
      8 + 8 + idb.options.size + 4 := by
    rw [length_frameRef, idb.length_body]
    omega
  have bounded := idb.total_lt
  have body := standsAt_body stands
  have snaplen : StandsAt file (pos + 8 + 4) (u32 le idb.snaplen) := by
    simpa only [length_u16, Nat.add_assoc] using body.right.right.left
  have options : StandsAt file (pos + (8 + 8)) (idb.options.encode le) := by
    simpa only [length_u32, length_u16, Nat.add_assoc] using body.right.right.right
  -- the block type is no pcap magic in either byte order
  have notMagic : ¬ isPcapMagic (rd32 file pos true) = true := by
    cases le with
    | true =>
        rw [rd32_of_standsAt stands.left (by decide)]
        decide
    | false =>
        have swapped : u32 false kBlockTypeIdb = u32 true 0x01000000 := by decide
        have type := stands.left
        rw [swapped] at type
        rw [rd32_of_standsAt type (by decide)]
        decide
  refine ⟨_, (if_neg ?_).trans ((if_neg ?_).trans (if_neg ?_)), ?_⟩
  · rintro (kind | cut)
    · exact kind rfl
    · exact absurd cut (Nat.not_lt.mpr inside)
  · exact fun synthetic => notMagic synthetic.2
  · omega
  · constructor
    · exact rd16_of_standsAt body.left idb.linkType_lt
    · exact rd32_of_standsAt snaplen idb.snaplen_lt
    · dsimp only
      rw [window_size total (by omega)]
      exact idbTsResol_encode options
    · dsimp only
      rw [window_size total (by omega)]
      exact optionValues_encode options

/-- Two words hold a timestamp, the high one first. -/
theorem timestamp_of_standsAt {off off' timestamp : Nat}
    (high : StandsAt file off (u32 le (timestamp / 2 ^ 32)))
    (low : StandsAt file off' (u32 le (timestamp % 2 ^ 32))) (bounded : timestamp < 2 ^ 64) :
    rd32 file off le * 2 ^ 32 + rd32 file off' le = timestamp := by
  rw [rd32_of_standsAt high (by omega), rd32_of_standsAt low (by omega)]
  omega

theorem EpbContent.length_frameRef (le : Bool) (pos : Nat) (epb : EpbContent) :
    (frameRef le pos kBlockTypeEpb (epb.body le)).length =
      28 + roundUp4 epb.data.length + epb.options.size + 4 := by
  rw [PcapBlocks.length_frameRef, epb.length_body]
  omega

/-- The option window of a packet block is its encoded area. -/
theorem EpbContent.epbOptions_frameRef (le : Bool) (pos : Nat) (epb : EpbContent) :
    epbOptions pos (frameRef le pos kBlockTypeEpb (epb.body le)).length epb.data.length le =
      ⟨some (pos + (28 + roundUp4 epb.data.length)), epb.options.size, le⟩ := by
  have total := epb.length_frameRef le pos
  have bounded := epb.total_lt
  have small : epb.data.length ≤ 2 ^ 32 - 36 := by
    unfold roundUp4 at bounded
    omega
  have size : (frameRef le pos kBlockTypeEpb (epb.body le)).length -
      (28 + roundUp4 epb.data.length) - 4 = epb.options.size := by omega
  rw [epbOptions_of_small le (by omega) small, if_pos (by omega), size]

theorem parseEpb_encode {epb : EpbContent}
    (stands : StandsAt file pos (frameBlock le kBlockTypeEpb (epb.body le))) :
    ∃ view, parseEpb file (frameRef le pos kBlockTypeEpb (epb.body le)) = some view ∧
      epb.ParsedAs le file view := by
  have inside := stands.length_le
  have total := epb.length_frameRef le pos
  have bounded := epb.total_lt
  have rounded := le_roundUp4 epb.data.length
  have body := standsAt_body stands
  have tsHigh : StandsAt file (pos + 8 + 4) (u32 le (epb.timestamp / 2 ^ 32)) := by
    simpa only [length_u32] using body.right.left
  have tsLow : StandsAt file (pos + 8 + 8) (u32 le (epb.timestamp % 2 ^ 32)) := by
    simpa only [length_u32, Nat.add_assoc] using body.right.right.left
  have caplen : StandsAt file (pos + 8 + 12) (u32 le epb.data.length) := by
    simpa only [length_u32, Nat.add_assoc] using body.right.right.right.left
  have origlen : StandsAt file (pos + 8 + 16) (u32 le epb.origlen) := by
    simpa only [length_u32, Nat.add_assoc] using body.right.right.right.right.left
  have payload : StandsAt file (pos + 8 + 20) epb.data := by
    simpa only [length_u32, Nat.add_assoc] using body.right.right.right.right.right.left
  have options : StandsAt file (pos + (28 + roundUp4 epb.data.length)) (epb.options.encode le) := by
    have area := body.right.right.right.right.right.right.right
    simp only [length_u32] at area
    rw [← epb.padded]
    simpa only [Nat.add_assoc, Nat.reduceAdd] using area
  have caplenRead : rd32 file (pos + 8 + 12) le = epb.data.length :=
    rd32_of_standsAt caplen (by omega)
  refine ⟨_, (if_neg ?_).trans ((if_neg ?_).trans (if_neg ?_)), ?_⟩
  · exact Nat.not_lt.mpr inside
  · show Kind.epb ≠ .pcapRecord
    decide
  · rintro (kind | short)
    · exact kind rfl
    · omega
  · constructor
    · exact rd32_of_standsAt body.left epb.interfaceId_lt
    · exact timestamp_of_standsAt tsHigh tsLow epb.timestamp_lt
    · exact caplenRead
    · exact rd32_of_standsAt origlen epb.origlen_lt
    · exact payload
    · show epbFlags file le (epbOptions pos _ (rd32 file (pos + 8 + 12) le) le) = _
      rw [caplenRead, epb.epbOptions_frameRef]
      exact epbFlags_encode options
    · show optionValues file (epbOptions pos _ (rd32 file (pos + 8 + 12) le) le) = _
      rw [caplenRead, epb.epbOptions_frameRef]
      exact optionValues_encode options

end Parse

/-- Parsing inverts encoding: an SHB, IDB or EPB with any options, framed
anywhere in a buffer, is parsed back to its contents. -/
theorem parseBlocks_encode (le : Bool) (before after : Bytes) :
    (∀ shb : ShbContent,
      let file := before ++ (frameBlock le kBlockTypeShb (shb.body le) ++ after)
      ∃ view, parseShb file (frameRef le before.length kBlockTypeShb (shb.body le)) = some view ∧
        shb.ParsedAs file view) ∧
    (∀ idb : IdbContent,
      let file := before ++ (frameBlock le kBlockTypeIdb (idb.body le) ++ after)
      ∃ view, parseIdb file (frameRef le before.length kBlockTypeIdb (idb.body le)) = some view ∧
        idb.ParsedAs file view) ∧
    (∀ epb : EpbContent,
      let file := before ++ (frameBlock le kBlockTypeEpb (epb.body le) ++ after)
      ∃ view, parseEpb file (frameRef le before.length kBlockTypeEpb (epb.body le)) = some view ∧
        epb.ParsedAs le file view) :=
  ⟨fun _ => parseShb_encode (.mk before _ after), fun _ => parseIdb_encode (.mk before _ after),
    fun _ => parseEpb_encode (.mk before _ after)⟩

end Nanotins.PcapBlocks
