import Nanotins.SpecDag.Boundaries
import Nanotins.SpecDag.Decode

/-!
Contract: walking a packet that the capture has cut short.

Owns: that reads inside the kept bytes do not see the cut, and the rule that
rows collected along the walk of the kept bytes are the first of those collected
along the walk of the whole packet.

Does not own: the child traversals.
-/

namespace Nanotins.SpecDag

open Nanotins.Library Nanotins.Wire

/-! ### Reads inside the kept bytes -/

section Reads

variable {kept : Bytes} (cut : Bytes) {base off n : Nat} {field : Field} {node : L2L3Node}

theorem readUint_append (inside : base + field.endOffset ≤ kept.length) :
    readUint (kept ++ cut) base field = readUint kept base field :=
  eq_of_guarded (fun rd => readUintM rd base field) cut (Nat.le_refl _)
    (readUintM_guarded (Nat.zero_le base) inside) (readUintM_guarded (Nat.zero_le base) inside)

theorem readField_append (inside : base + field.endOffset ≤ kept.length) :
    readField (kept ++ cut) base field = readField kept base field :=
  eq_of_guarded (fun rd => readFieldM rd base field) cut (Nat.le_refl _)
    (readFieldM_guarded (Nat.zero_le base) inside) (readFieldM_guarded (Nat.zero_le base) inside)

theorem readBig_append (inside : off + n ≤ kept.length) :
    readBig (kept ++ cut) off n = readBig kept off n :=
  eq_of_guarded (fun rd => readBigM rd off n) cut (Nat.le_refl _)
    (readBigM_guarded (Nat.zero_le off) inside) (readBigM_guarded (Nat.zero_le off) inside)

theorem readBytes_append (inside : off + n ≤ kept.length) :
    readBytes (kept ++ cut) off n = readBytes kept off n :=
  eq_of_guarded (fun rd => readBytesM rd off n) cut (Nat.le_refl _)
    (readBytesM_guarded (Nat.zero_le off) inside) (readBytesM_guarded (Nat.zero_le off) inside)

/-- The fields of a whole header. -/
theorem readField_append_of_mem {spec : WireSpec} (member : field ∈ spec)
    (fits : base + specSize spec ≤ kept.length) :
    readField (kept ++ cut) base field = readField kept base field := by
  have inside := endOffset_le_specSize member
  exact readField_append cut (by omega)

theorem readUint_append_of_mem {spec : WireSpec} (member : field ∈ spec)
    (fits : base + specSize spec ≤ kept.length) :
    readUint (kept ++ cut) base field = readUint kept base field := by
  have inside := endOffset_le_specSize member
  exact readUint_append cut (by omega)

theorem after_append (fits : l2l3.Fits kept off node) :
    l2l3.after (kept ++ cut) off node = l2l3.after kept off node :=
  congrArg (off + ·) (eq_of_guarded (fun rd => node.advanceM rd off) cut (Nat.le_refl _)
    (advanceM_guarded node (Nat.zero_le off) fits) (advanceM_guarded node (Nat.zero_le off) fits))

theorem follow_append (fits : l2l3.Fits kept off node) :
    l2l3.follow (kept ++ cut) off node = l2l3.follow kept off node :=
  eq_of_guarded (fun rd => node.nextM rd off) cut (Nat.le_refl _)
    (nextM_guarded node (Nat.zero_le off) fits) (nextM_guarded node (Nat.zero_le off) fits)

theorem Fits.append (fits : l2l3.Fits kept off node) : l2l3.Fits (kept ++ cut) off node := by
  change off + specSize (l2l3.spec node) ≤ _ at fits ⊢
  rw [List.length_append]
  omega

end Reads

/-! ### Rows along a walk -/

/-- Collect rows from each visit, with a state that visits update. -/
def rowsAlong {σ ρ Visit : Type} (rows : σ → Visit → List ρ) (step : σ → Visit → σ) :
    σ → List Visit → List ρ
  | _, [] => []
  | state, visit :: visits => rows state visit ++ rowsAlong rows step (step state visit) visits

theorem rowsAlong_flatMap {ρ Visit : Type} (rows : Visit → List ρ) (visits : List Visit) :
    rowsAlong (fun _ => rows) (fun _ _ => ()) () visits = visits.flatMap rows := by
  induction visits with
  | nil => rfl
  | cons visit visits inductionHypothesis =>
      rw [rowsAlong, inductionHypothesis, List.flatMap_cons]

section Walk

variable {σ ρ : Type} {kept : Bytes} (cut : Bytes)
  (short whole : σ → L2L3Node × Nat → List ρ) (step : σ → L2L3Node × Nat → σ)
  -- a header that is whole gives at most the rows it gives in the whole packet
  (first : ∀ state node off, l2l3.Fits kept off node →
    short state (node, off) <+: whole state (node, off))
  -- and the same rows, if the walk goes on behind it
  (complete : ∀ state node off target, l2l3.Fits kept off node →
    l2l3.follow kept off node = some target → l2l3.Fits kept (l2l3.after kept off node) target →
    short state (node, off) = whole state (node, off))

include first complete

/-- Cutting a packet drops trailing rows. -/
theorem rowsAlong_walkFrom (state : σ) (fuel : Nat) (node : Option L2L3Node) (off : Nat) :
    rowsAlong short step state (walkFrom l2l3 kept fuel node off).visits <+:
      rowsAlong whole step state (walkFrom l2l3 (kept ++ cut) fuel node off).visits := by
  induction fuel generalizing state node off with
  | zero => exact List.nil_prefix
  | succ fuel inductionHypothesis =>
      cases node with
      | none => exact List.nil_prefix
      | some node =>
          by_cases fits : l2l3.Fits kept off node
          · have here := first state node off fits
            rw [walkFrom_of_fits fits, walkFrom_of_fits (Fits.append cut fits),
              follow_append cut fits, after_append cut fits]
            dsimp only [rowsAlong]
            cases edge : l2l3.follow kept off node with
            | none =>
                rw [walkFrom_none, walkFrom_none]
                dsimp only [rowsAlong]
                rwa [List.append_nil, List.append_nil]
            | some target =>
                by_cases next : l2l3.Fits kept (l2l3.after kept off node) target
                · rw [complete state node off target fits edge next, List.prefix_append_right_inj]
                  exact inductionHypothesis _ _ _
                · rw [walkFrom_of_not_fits next]
                  dsimp only [rowsAlong]
                  rw [List.append_nil]
                  exact here.trans (List.prefix_append _ _)
          · rw [walkFrom_of_not_fits fits]
            exact List.nil_prefix

end Walk

/-! ### Node tables -/

theorem dagRow_append {kept : Bytes} (cut : Bytes) (packetId : Nat) {visit : L2L3Node × Nat}
    (fits : l2l3.Fits kept visit.2 visit.1) (cols : DagColumn l2l3 → Bool) :
    (dagRow (G := l2l3) packetId kept visit).restrict cols =
      (dagRow (G := l2l3) packetId (kept ++ cut) visit).restrict cols := by
  refine Row.restrict_congr rfl fun col own _ => ?_
  cases col with
  | packetId node => rfl
  | field node index =>
      obtain rfl : node = visit.1 := own
      exact (readField_append_of_mem cut (List.get_mem _ _) fits).symm

/-- The node tables of a cut packet are those of the whole one, without rows at
their ends. -/
theorem dagDecodePacket_append (kept cut : Bytes) (root : L2L3Node) (packetId : Nat)
    (tabs : DagTables l2l3) :
    Store.ExtendsOn (fun _ => true) (dagDecodePacket l2l3 root packetId kept tabs)
      (dagDecodePacket l2l3 root packetId (kept ++ cut) tabs) := by
  have shorter := dagDecodePacket_eq (G := l2l3) root ⟨kept, packetId⟩ tabs
  have longer := dagDecodePacket_eq (G := l2l3) root ⟨kept ++ cut, packetId⟩ tabs
  rw [shorter, longer]
  apply Store.extendsOn_of_prefix
  rw [dagRows, dagRows, List.map_map, List.map_map, List.map_eq_flatMap, List.map_eq_flatMap,
    ← rowsAlong_flatMap, ← rowsAlong_flatMap]
  have same : ∀ node off, l2l3.Fits kept off node →
      [(dagRow (G := l2l3) packetId kept (node, off)).restrict fun _ => true] =
        [(dagRow (G := l2l3) packetId (kept ++ cut) (node, off)).restrict fun _ => true] :=
    fun node off fits => congrArg ([·]) (dagRow_append cut packetId fits _)
  apply rowsAlong_walkFrom cut
  · intro _ node off fits
    exact same node off fits ▸ List.prefix_rfl
  · intro _ node off _ fits _ _
    exact same node off fits

end Nanotins.SpecDag
