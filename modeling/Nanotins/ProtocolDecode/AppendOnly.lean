import Nanotins.ProtocolDecode.Window
import Nanotins.SpecDag.Decode

/-!
Contract: when a bulk decode only appends to the tables it is given.

Owns: the exact condition for `dag_decode_bulk` and for `decode_window`
(`bulkDecode_appends_iff`), and tables that a bulk decode cuts.

Does not own: which rows a packet has.
-/

namespace Nanotins.ProtocolDecode

open Nanotins.Library Nanotins.SpecDag

/-! ### Node tables -/

/-- The seeds, sums and resize targets of a bulk decode are `uint32_t`. -/
theorem dagDecodeBulk_grows_iff {G : Graph Id} {root : G.Node} {tabs : DagTables G}
    {pkts : List DagPacket} {outcome : Option (DagTables G)}
    (run : DagDecodeBulk G root tabs pkts outcome) :
    (∃ after, outcome = some after ∧
        tabs.Grows (emitted (pkts.flatMap (dagRows root))) after) ↔
      tabs.Rectangular ∧
        ∀ node, tabs.height node + emitted (pkts.flatMap (dagRows root)) node < 2 ^ 32 := by
  have scattered : tabs.Scatters counterModulus (pkts.map (dagRows root)) outcome :=
    (Store.countScatter_iff (countPacketDag_eq root)
      (fun base pkt => scatterPacketDag_eq root pkt base) tabs pkts outcome).mp run
  rw [List.flatMap_def]
  exact Store.scatters_grows_iff (Nat.two_pow_pos 32) scattered

/-! ### PDU columns -/

/-- No access changes the length of an array. -/
theorem length_act {state next : WindowState} {action : WindowAction}
    (acted : state.act action = some next) :
    (∀ array, (next.out array).length = (state.out array).length) ∧
      next.trailers.map List.length = state.trailers.map List.length := by
  cases action with
  | column write =>
      obtain ⟨out, written, rfl⟩ := Option.map_eq_some_iff.mp acted
      exact ⟨Store.length_write written, rfl⟩
  | trailer index result =>
      obtain ⟨out, trailers⟩ := state
      cases trailers with
      | none =>
          obtain rfl := Option.some.inj acted
          exact ⟨fun _ => rfl, rfl⟩
      | some trailers =>
          obtain ⟨-, same⟩ := Option.ite_none_right_eq_some.mp acted
          obtain rfl := Option.some.inj same
          exact ⟨fun _ => rfl, congrArg some List.length_set⟩

theorem length_foldlM_act {state final : WindowState} {trace : List WindowAction}
    (ran : trace.foldlM WindowState.act state = some final) (array : PduArray) :
    (final.out array).length = (state.out array).length := by
  induction trace generalizing state with
  | nil => rw [Option.some.inj ran]
  | cons action trace inductionHypothesis =>
      rw [List.foldlM_cons] at ran
      obtain ⟨next, acted, rest⟩ := Option.bind_eq_some_iff.mp ran
      rw [inductionHypothesis rest, (length_act acted).1]

/-- A run without a fault has a slot for each trailer that it writes. -/
theorem trailers_roomy_of_foldlM_act {state final : WindowState} {trace : List WindowAction}
    (ran : trace.foldlM WindowState.act state = some final) {trailers : List WalkResult}
    (present : state.trailers = some trailers) :
    ∀ entry ∈ trailerWrites trace, entry.1 < trailers.length := by
  induction trace generalizing state trailers with
  | nil =>
      intro entry member
      cases member
  | cons action trace inductionHypothesis =>
      rw [List.foldlM_cons] at ran
      obtain ⟨next, acted, rest⟩ := Option.bind_eq_some_iff.mp ran
      have sizes := (length_act acted).2
      rw [present, Option.map_some, Option.map_eq_some_iff] at sizes
      obtain ⟨later, laterPresent, sameLength⟩ := sizes
      have tail := inductionHypothesis rest laterPresent
      rw [sameLength] at tail
      cases action with
      | column write => exact tail
      | trailer index result =>
          intro entry member
          rcases List.mem_cons.mp member with rfl | member
          · unfold WindowState.act at acted
            rw [present] at acted
            exact (Option.ite_none_right_eq_some.mp acted).1
          · exact tail entry member

theorem decodes_grows_iff {w : Window} {start : WindowState} {outcome : Option WindowState}
    (decodes : w.Decodes start outcome) :
    (∃ after, outcome = some after ∧
        start.out.Grows (emitted ((List.range w.n).flatMap w.rowsAt)) after.out) ↔
      w.n = 0 ∨ w.SlicesRefused ∧ start.out.Rectangular ∧
        (∀ trailers, start.trailers = some trailers → w.n ≤ trailers.length) ∧
        ∀ type, start.out.height type +
          emitted ((List.range w.n).flatMap w.rowsAt) type < 2 ^ 32 := by
  by_cases empty : w.n = 0
  · rw [Window.Decodes, if_pos empty] at decodes
    rw [empty]
    apply iff_of_true
    · exact ⟨start, decodes, Store.grows_appendAll start.out []⟩
    · exact .inl rfl
  · rw [or_iff_right empty, List.flatMap_def]
    constructor
    · intro appended
      obtain ⟨after, rfl, grows⟩ := appended
      have refused : w.SlicesRefused := by
        by_contra escapes
        exact Option.some_ne_none _ (Window.outcome_of_escape escapes decodes)
      obtain ⟨trace, -, trailersFilled, ran⟩ := Window.trace_of_decodes empty refused decodes
      have sized : ∀ array, (after.out array).length =
          (start.out.height array.type +
            emitted ((List.range w.n).map w.rowsAt).flatten array.type) % 2 ^ 32 := by
        intro array
        rw [length_foldlM_act ran.symm]
        dsimp only
        rw [Store.resize, length_resizeColumn, Store.scanTotal_seed (Nat.two_pow_pos 32)]
      obtain ⟨rectangular, bounded⟩ := Store.fits_of_grows (Nat.two_pow_pos 32) grows sized
      refine ⟨refused, rectangular, ?_, bounded⟩
      intro trailers present
      have last : w.n - 1 < w.n := Nat.sub_one_lt empty
      have written := trailers_roomy_of_foldlM_act ran.symm present _
        (trailersFilled.mem_iff.mpr (List.mem_map_of_mem (List.mem_range.mpr last)))
      exact Nat.le_of_pred_lt written
    · intro fits
      obtain ⟨refused, rectangular, roomy, bounded⟩ := fits
      have small : ∀ type,
          (start.out.appendAll ((List.range w.n).map w.rowsAt).flatten).height type < 2 ^ 32 := by
        intro type
        rw [Store.height_appendAll]
        exact bounded type
      obtain ⟨results, -, same⟩ :=
        Window.decodes_of_fits empty refused rectangular roomy small decodes
      exact ⟨_, same, Store.grows_appendAll _ _⟩

/-! ### Both decoders -/

private theorem forall_run_iff {Outcome : Type} {Run Good : Outcome → Prop} {condition : Prop}
    (possible : ∃ outcome, Run outcome)
    (exactly : ∀ outcome, Run outcome → (Good outcome ↔ condition)) :
    (∀ outcome, Run outcome → Good outcome) ↔ condition := by
  constructor
  · intro good
    obtain ⟨outcome, run⟩ := possible
    exact (exactly outcome run).mp (good outcome run)
  · intro holds outcome run
    exact (exactly outcome run).mpr holds

/-- A bulk decode appends the rows of its batch and nothing else, exactly when no table
would reach 2^32 rows, all columns of a table, and the trailers, are as long as the
caller promises, and no slice passes the guard of a window by wrapping.  An empty window
is returned from before the tables are sized; an empty batch is not. -/
theorem bulkDecode_appends_iff (G : Graph Id) (root : G.Node) (tabs : DagTables G)
    (pkts : List DagPacket) (w : Window) (start : WindowState) :
    ((∀ outcome, DagDecodeBulk G root tabs pkts outcome →
          ∃ after, outcome = some after ∧
            tabs.Grows (emitted (pkts.flatMap (dagRows root))) after) ↔
        tabs.Rectangular ∧
          ∀ node, tabs.height node + emitted (pkts.flatMap (dagRows root)) node < 2 ^ 32) ∧
      ((∀ outcome, w.Decodes start outcome →
          ∃ after, outcome = some after ∧
            start.out.Grows (emitted ((List.range w.n).flatMap w.rowsAt)) after.out) ↔
        w.n = 0 ∨ w.SlicesRefused ∧ start.out.Rectangular ∧
          (∀ trailers, start.trailers = some trailers → w.n ≤ trailers.length) ∧
          ∀ type, start.out.height type +
            emitted ((List.range w.n).flatMap w.rowsAt) type < 2 ^ 32) := by
  constructor
  · apply forall_run_iff (exists_dagDecodeBulk root tabs pkts)
    intro outcome run
    exact dagDecodeBulk_grows_iff run
  · apply forall_run_iff (Window.exists_decodes w start)
    intro outcome decodes
    exact decodes_grows_iff decodes

/-- An Ethernet header alone. -/
def barePacket : DagPacket := ⟨List.replicate 14 0, 0⟩

/-- The tables after 2^32 packets of one row each. -/
def fullTables : DagTables (L2L3Graph Id) :=
  (List.replicate (2 ^ 32) barePacket).foldl
    (fun tabs pkt => dagDecodePacket (L2L3Graph Id) kEthRoot pkt.packetId pkt.data tabs)
    fun _ => []

theorem height_fullTables : fullTables.height kEthRoot = 2 ^ 32 := by
  have one : emitted (dagRows (G := L2L3Graph Id) kEthRoot barePacket) kEthRoot = 1 := by decide
  have none : Store.height (fun _ => [] : DagTables (L2L3Graph Id)) kEthRoot = 0 := rfl
  rw [fullTables, dagDecodePackets_eq, Store.appendPackets_eq, Store.height_appendAll, none,
    Nat.zero_add, List.countP_flatten, List.map_map, List.map_replicate, List.sum_replicate_nat]
  exact (congrArg (2 ^ 32 * ·) one).trans (Nat.mul_one _)

/-- One packet more, and the earlier rows are gone. -/
theorem bulkDecode_appends_fails :
    ¬ ∀ outcome, DagDecodeBulk (L2L3Graph Id) kEthRoot fullTables [barePacket] outcome →
      ∃ after, outcome = some after ∧
        fullTables.Grows (emitted ([barePacket].flatMap (dagRows kEthRoot))) after := by
  intro appends
  obtain ⟨outcome, run⟩ := exists_dagDecodeBulk (G := L2L3Graph Id) kEthRoot fullTables [barePacket]
  have bounded := ((dagDecodeBulk_grows_iff run).mp (appends outcome run)).2 kEthRoot
  rw [height_fullTables] at bounded
  exact absurd bounded (Nat.not_lt.mpr (Nat.le_add_right _ _))

end Nanotins.ProtocolDecode
