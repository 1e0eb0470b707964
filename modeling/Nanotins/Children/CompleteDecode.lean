import Nanotins.Children.Ipv4Children
import Nanotins.Children.Ipv6Children
import Nanotins.Children.SomeipSd

/-!
Contract: a complete decode of a packet reads no byte outside the packet.

Owns: the decode that appends every visited header and emits all its children,
over an arbitrary byte reader, what it reads at each visit, and that its run on
the reader guarded by the packet's size never faults.

Does not own: the tables that the values end up in.
-/

namespace Nanotins.Children

open Nanotins.Library Nanotins.Wire Nanotins.SpecDag

/-! ### What the callbacks read of a child -/

/-- The bytes of a segment's address; a TLV callback reads nothing further. -/
def srhChildReadsM {m : Type → Type} [Monad m] (rd : Nat → m UInt8) : SrhChild → m Bytes
  | .segment _ s => readBytesM rd s 16
  | .tlv _ _ => pure []

/-- The values a service discovery callback reads: the fields of an entry, or
the endpoint of an option. -/
inductive SdChildReads where
  | entry (fields : List FieldValue)
  | option (endpoint : SdEndpoint)
deriving DecidableEq, Repr

def sdChildReadsM {m : Type → Type} [Monad m] (rd : Nat → m UInt8) (size : Nat) :
    SdChild → m SdChildReads
  | .entry _ e => do
      let fields ← SomeipSdEntrySpec.fields.mapM (readFieldM rd e)
      return .entry fields
  | .option _ o _ type => do
      let endpoint ← sdDecodeEndpointM rd o type size
      return .option endpoint

/-- The children of a visited header, with what their callbacks read. -/
inductive ChildReads where
  | none
  | srh (children : List (SrhChild × Bytes))
  | options (children : List OptChild)
  | sd (children : List (SdChild × SdChildReads))
deriving DecidableEq, Repr

structure VisitReads where
  fields : List FieldValue
  children : ChildReads
deriving DecidableEq, Repr

section Decode

variable {m : Type → Type} [Monad m] (rd : Nat → m UInt8) (size : Nat)

/-- The child traversal that hangs off a node, and its callbacks. -/
def childReadsM (off : Nat) : L2L3Node → m ChildReads
  | .ipv6Routing => do
      let children ← forEachSrhChildM rd off size
      let reads ← children.mapM (srhChildReadsM rd)
      return .srh (children.zip reads)
  | .ipv6HopByHop | .ipv6DestOpt => do
      let children ← forEachOptM rd off size
      return .options children
  | .ipv4 => do
      let children ← forEachIpv4OptM rd off size
      return .options children
  | .someip => do
      let children ← forEachSdChildM rd off size
      let reads ← children.mapM (sdChildReadsM rd size)
      return .sd (children.zip reads)
  | _ => pure .none

/-- Append the header's fields, then traverse its children. -/
def visitReadsM (visit : L2L3Node × Nat) : m VisitReads := do
  let fields ← visit.1.spec.mapM (readFieldM rd visit.2)
  let children ← childReadsM rd size visit.2 visit.1
  return ⟨fields, children⟩

/-- Walk a packet and visit every header. -/
def completeDecodeM (root : L2L3Node) : m (List VisitReads) := do
  let walked ← walkM (L2L3Graph m) rd size root
  walked.visits.mapM (visitReadsM rd size)

end Decode

/-! ### The same reads in the terms of the serial decoders -/

section Total

variable (pkt : Bytes)

def srhChildReads : SrhChild → Bytes
  | .segment _ s => readBytes pkt s 16
  | .tlv _ _ => []

def sdChildReads : SdChild → SdChildReads
  | .entry _ e => .entry (SomeipSdEntrySpec.fields.map (readField pkt e))
  | .option _ o _ type => .option (sdDecodeEndpoint pkt o type pkt.length)

def childReads (off : Nat) : L2L3Node → ChildReads
  | .ipv6Routing =>
      .srh ((forEachSrhChild pkt off).zip ((forEachSrhChild pkt off).map (srhChildReads pkt)))
  | .ipv6HopByHop | .ipv6DestOpt => .options (forEachOpt pkt off)
  | .ipv4 => .options (forEachIpv4Opt pkt off)
  | .someip =>
      .sd ((forEachSdChild pkt off).zip ((forEachSdChild pkt off).map (sdChildReads pkt)))
  | _ => .none

def visitReads (visit : L2L3Node × Nat) : VisitReads :=
  ⟨visit.1.spec.map (readField pkt visit.2), childReads pkt visit.2 visit.1⟩

end Total

/-! ### Every read is in range -/

variable {pkt : Bytes}

theorem srhChildReadsM_guarded {off : Nat} {child : SrhChild}
    (member : child ∈ forEachSrhChild pkt off) :
    srhChildReadsM (guardedByte pkt 0 pkt.length) child = some (srhChildReads pkt child) := by
  cases child with
  | segment index s =>
      exact readBytesM_guarded (Nat.zero_le s) (segment_mem_forEachSrhChild member)
  | tlv type length => rfl

theorem sdChildReadsM_guarded {off : Nat} {child : SdChild}
    (member : child ∈ forEachSdChild pkt off) :
    sdChildReadsM (guardedByte pkt 0 pkt.length) pkt.length child =
      some (sdChildReads pkt child) := by
  cases child with
  | entry index e =>
      have inside := entry_mem_forEachSdChild member
      rw [sdChildReadsM, mapM_eq_some fun field member =>
        readFieldM_guarded_of_mem member (Nat.zero_le e) inside]
      rfl
  | option index o length type =>
      rw [sdChildReadsM, sdDecodeEndpointM_guarded]
      rfl

theorem childReadsM_guarded {off : Nat} {node : L2L3Node}
    (fits : off + specSize node.spec ≤ pkt.length) :
    childReadsM (guardedByte pkt 0 pkt.length) pkt.length off node =
      some (childReads pkt off node) := by
  cases node with
  | ipv6Routing =>
      rw [childReadsM, forEachSrhChildM_guarded fits]
      change Option.bind (List.mapM _ _) _ = _
      rw [mapM_eq_some fun child member => srhChildReadsM_guarded member]
      rfl
  | ipv6HopByHop | ipv6DestOpt =>
      rw [childReadsM, forEachOptM_guarded fits]
      rfl
  | ipv4 =>
      rw [childReadsM, forEachIpv4OptM_guarded fits]
      rfl
  | someip =>
      rw [childReadsM, forEachSdChildM_guarded off]
      change Option.bind (List.mapM _ _) _ = _
      rw [mapM_eq_some fun child member => sdChildReadsM_guarded member]
      rfl
  | eth | vlan | ipv6 | tcp | udp | gptp | ptpTimestampBody | ptpTsPortBody | ptpAnnounceBody
  | ptpSignalingBody | ipv6Fragment | ipv6Ah => rfl

theorem visitReadsM_guarded {visit : L2L3Node × Nat}
    (fits : visit.2 + specSize visit.1.spec ≤ pkt.length) :
    visitReadsM (guardedByte pkt 0 pkt.length) pkt.length visit = some (visitReads pkt visit) := by
  rw [visitReadsM, mapM_eq_some fun field member =>
    readFieldM_guarded_of_mem member (Nat.zero_le visit.2) fits, childReadsM_guarded fits]
  rfl

/-- Whatever bytes a packet holds, the complete decode reads none behind its
end: on the reader that faults there, it gives what it gives on the packet. -/
theorem completeDecodeM_guarded (pkt : Bytes) (root : L2L3Node) :
    completeDecodeM (guardedByte pkt 0 pkt.length) pkt.length root =
      some ((walk (L2L3Graph Id) root pkt).visits.map (visitReads pkt)) := by
  rw [completeDecodeM, walkM_guarded pkt root]
  apply mapM_eq_some
  intro visit visited
  apply visitReadsM_guarded
  exact fits_of_mem_visits visited

end Nanotins.Children
