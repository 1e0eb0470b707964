import Nanotins.SpecDag.Boundaries
import Nanotins.SpecDag.Decode
import Nanotins.Wire.Encode

/-!
Contract: a walk follows headers that name each other.

Owns: framed headers and what reads give of them, chains of headers that name each
other, that a walk visits exactly the headers of a chain and goes on behind them
(`walkFrom_of_namedChain`), and the rows of these visits.

Does not own: which headers name each other.
-/

namespace Nanotins.SpecDag

open Nanotins.Library Nanotins.Wire

/-! ### Framed headers -/

/-- A header: the values of its spec's fields, and the bytes behind its fixed
part. -/
structure Header where
  node : L2L3Node
  values : List FieldValue
  body : Bytes
  packed : packed node.spec = true
  fits : List.Forall₂ FieldFits node.spec values

namespace Header

def encode (header : Header) : Bytes := encodeFields header.node.spec header.values ++ header.body

theorem length_encode (header : Header) :
    header.encode.length = specSize header.node.spec + header.body.length := by
  rw [encode, List.length_append, length_encodeFields]

section Read

variable {header : Header} {pkt : Bytes} {off : Nat}

theorem readField_eq (stands : StandsAt pkt off header.encode) :
    header.node.spec.map (readField pkt off) = header.values :=
  readField_encodeFields header.packed header.fits stands.left

theorem fits_at (stands : StandsAt pkt off header.encode) : l2l3.Fits pkt off header.node := by
  have inside := stands.length_le
  rw [length_encode] at inside
  show off + specSize header.node.spec ≤ pkt.length
  omega

/-- The header's body stands behind its fixed part. -/
theorem standsAt_body (stands : StandsAt pkt off header.encode) :
    StandsAt pkt (off + specSize header.node.spec) header.body := by
  have body := stands.right
  rwa [length_encodeFields] at body

end Read

end Header

/-- The visits of headers framed one behind the other from `off` on. -/
def headerVisits : Nat → List Header → List (L2L3Node × Nat)
  | _, [] => []
  | off, header :: headers =>
      (header.node, off) :: headerVisits (off + header.encode.length) headers

theorem headerVisits_append (off : Nat) (front back : List Header) :
    headerVisits off (front ++ back) =
      headerVisits off front ++
        headerVisits (off + (front.flatMap Header.encode).length) back := by
  induction front generalizing off with
  | nil => rfl
  | cons header front inductionHypothesis =>
      rw [List.cons_append, headerVisits, headerVisits, inductionHypothesis, List.flatMap_cons,
        List.length_append, Nat.add_assoc]
      rfl

section Reads

variable {pkt : Bytes} {off : Nat}

theorem fits_bytes {name : String} {offset n : Nat} {string : Bytes} (length : string.length = n) :
    FieldFits ⟨name, offset, .bytes n⟩ (.bytes string) :=
  length ▸ .bytes string

/-- An unsigned field that reads as `.uint value` has this value. -/
theorem readUint_of_readField {name : String} {offset size value : Nat}
    (read : readField pkt off (uintField name offset size) = .uint value) :
    readUint pkt off (uintField name offset size) = value :=
  FieldValue.uint.inj read

/-- A header whose first two fields are integers reads as these two. -/
theorem leadingReads {header : Header} {spec : WireSpec} {values : List FieldValue}
    {name name' : String} {offset offset' size size' first second : Nat}
    (layout : header.node.spec =
      uintField name offset size :: uintField name' offset' size' :: spec)
    (content : header.values = .uint first :: .uint second :: values)
    (stands : StandsAt pkt off header.encode) :
    readUint pkt off (uintField name offset size) = first ∧
      readUint pkt off (uintField name' offset' size') = second := by
  have read := Header.readField_eq stands
  rw [layout, content] at read
  rcases List.cons.inj read with ⟨firstRead, read⟩
  rcases List.cons.inj read with ⟨secondRead, -⟩
  exact ⟨readUint_of_readField firstRead, readUint_of_readField secondRead⟩

end Reads

/-! ### Chains -/

/-- Wherever `header` stands, it leads to `next` and ends where its bytes end. -/
def Names (header : Header) (next : Option L2L3Node) : Prop :=
  ∀ {pkt off}, StandsAt pkt off header.encode →
    l2l3.follow pkt off header.node = next ∧
      l2l3.after pkt off header.node = off + header.encode.length

/-- The node that a chain starts with, `final` behind the last header. -/
def firstNode : List Header → Option L2L3Node → Option L2L3Node
  | [], final => final
  | header :: _, _ => some header.node

/-- Each header of the chain names the next one, and the last names `final`. -/
def NamedChain : List Header → Option L2L3Node → Prop
  | [], _ => True
  | header :: headers, final => Names header (firstNode headers final) ∧ NamedChain headers final

theorem firstNode_append (front back : List Header) (final : Option L2L3Node) :
    firstNode (front ++ back) final = firstNode front (firstNode back final) := by
  cases front <;> rfl

theorem NamedChain.append {front back : List Header} {final : Option L2L3Node}
    (named : NamedChain front (firstNode back final)) (behind : NamedChain back final) :
    NamedChain (front ++ back) final := by
  induction front with
  | nil => exact behind
  | cons header front inductionHypothesis =>
      have here : Names header (firstNode (front ++ back) final) := by
        rw [firstNode_append]
        exact named.1
      exact ⟨@here, inductionHypothesis named.2⟩

/-- The walk over the headers of a chain goes on behind them with the steps that are
left, and ends where that walk ends. -/
theorem walkFrom_of_namedChain {pkt : Bytes} {off : Nat} {headers : List Header}
    {final : Option L2L3Node} (left : Nat) (named : NamedChain headers final)
    (stands : StandsAt pkt off (headers.flatMap Header.encode)) :
    walkFrom l2l3 pkt (left + headers.length) (firstNode headers final) off =
      let rest := walkFrom l2l3 pkt left final (off + (headers.flatMap Header.encode).length)
      ⟨headerVisits off headers ++ rest.visits, rest.consumed, rest.steps + headers.length⟩ := by
  induction headers generalizing off with
  | nil => rfl
  | cons header headers inductionHypothesis =>
      rw [List.flatMap_cons] at stands
      have here := stands.left
      obtain ⟨edge, behind⟩ := named.1 here
      have tail := inductionHypothesis named.2 stands.right
      have whole : l2l3.Fits pkt off header.node := Header.fits_at here
      show walkFrom l2l3 pkt (left + headers.length + 1) (some header.node) off = _
      rw [walkFrom_of_fits whole, edge, behind, tail, List.flatMap_cons, List.length_append,
        ← Nat.add_assoc]
      rfl

/-- The walk visits the headers of a chain and goes on behind them with the steps
that are left. -/
theorem visits_of_namedChain {pkt : Bytes} {off : Nat} {headers : List Header}
    {final : Option L2L3Node} (left : Nat) (named : NamedChain headers final)
    (stands : StandsAt pkt off (headers.flatMap Header.encode)) :
    (walkFrom l2l3 pkt (left + headers.length) (firstNode headers final) off).visits =
      headerVisits off headers ++
        (walkFrom l2l3 pkt left final (off + (headers.flatMap Header.encode).length)).visits :=
  congrArg Walk.visits (walkFrom_of_namedChain left named stands)

/-- The walk visits a chain and the header behind it, and goes on as that header
reads. -/
theorem visits_of_namedChain_last {pkt : Bytes} {off : Nat} {front : List Header} {last : Header}
    (left : Nat) (named : NamedChain front (some last.node))
    (stands : StandsAt pkt off ((front ++ [last]).flatMap Header.encode)) :
    let place := off + (front.flatMap Header.encode).length
    (walkFrom l2l3 pkt (left + (front ++ [last]).length) (firstNode front (some last.node))
        off).visits =
      headerVisits off (front ++ [last]) ++
        (walkFrom l2l3 pkt left (l2l3.follow pkt place last.node)
          (l2l3.after pkt place last.node)).visits := by
  rw [List.flatMap_append] at stands
  have before := visits_of_namedChain (left + 1) named stands.left
  have lastStands := stands.right
  rw [List.flatMap_singleton] at lastStands
  have whole : l2l3.Fits pkt _ last.node := Header.fits_at lastStands
  rw [walkFrom_of_fits whole, Nat.add_right_comm, Nat.add_assoc] at before
  rw [headerVisits_append, List.length_append]
  dsimp only
  rw [List.append_assoc]
  exact before

/-! ### Rows -/

/-- The row of a header as it was built. -/
def headerRow (packetId : Nat) (header : Header) : Row (dagSchema l2l3) where
  table := header.node
  cell
    | .packetId _ => .uint packetId
    | .field _ index => header.values.getD index (.uint 0)

/-- Where a header stands, its row is the row it was built as. -/
theorem cell_dagRow {header : Header} {pkt : Bytes} {off : Nat} (packetId : Nat)
    (stands : StandsAt pkt off header.encode) {col : DagColumn l2l3}
    (own : col.node = header.node) :
    (dagRow packetId pkt (header.node, off)).cell col = (headerRow packetId header).cell col := by
  cases col with
  | packetId node => rfl
  | field node index =>
      obtain rfl : node = header.node := own
      have inside : index.val < header.node.spec.length := index.isLt
      show readField pkt off (header.node.spec.get index) = header.values.getD index (.uint 0)
      rw [← Header.readField_eq stands, List.getD_eq_getElem?_getD, List.getElem?_map,
        List.getElem?_eq_getElem inside]
      rfl

theorem cellsOf_headerVisits {pkt : Bytes} {off : Nat} (packetId : Nat) (headers : List Header)
    (stands : StandsAt pkt off (headers.flatMap Header.encode)) (col : DagColumn l2l3) :
    cellsOf col ((headerVisits off headers).map (dagRow packetId pkt)) =
      cellsOf col (headers.map (headerRow packetId)) := by
  induction headers generalizing off with
  | nil => rfl
  | cons header headers inductionHypothesis =>
      rw [List.flatMap_cons] at stands
      have rest := inductionHypothesis stands.right
      rw [headerVisits, List.map_cons, List.map_cons, cellsOf_cons, cellsOf_cons, rest]
      have sameTable : (dagRow packetId pkt (header.node, off)).table =
          (headerRow packetId header).table := rfl
      rw [sameTable]
      split
      next own =>
        apply congrArg (· :: _)
        exact cell_dagRow packetId stands.left own.symm
      · rfl

theorem node_of_mem_headerVisits {off : Nat} {headers : List Header} :
    ∀ visit ∈ headerVisits off headers, ∃ header ∈ headers, visit.1 = header.node := by
  induction headers generalizing off with
  | nil => exact List.forall_mem_nil _
  | cons header headers inductionHypothesis =>
      refine List.forall_mem_cons.mpr ⟨⟨header, List.mem_cons_self, rfl⟩, ?_⟩
      intro visit member
      rcases inductionHypothesis visit member with ⟨other, inside, same⟩
      exact ⟨other, List.mem_cons_of_mem header inside, same⟩

end Nanotins.SpecDag
