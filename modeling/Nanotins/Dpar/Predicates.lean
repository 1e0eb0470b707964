import Nanotins.Dpar.Match
import Nanotins.SpecDag.Decode

/-!
Contract: predicates are evaluated on the values that decoding stores.

Owns: the last offset of a node in a walk, the value that a predicate on a
catalogued field compares, and that it is the value stored in the last row of
the node exactly when that value is not negative (`evaluatesDecoded_iff`).

Does not own: which rules a text compiles to.
-/

namespace Nanotins.Dpar

open Nanotins.Library Nanotins.Wire Nanotins.SpecDag

/-! ### The last header of a node -/

/-- The offset of the last visit to the node. -/
def lastOffset (visits : List (L2L3Node × Nat)) (node : L2L3Node) : Option Nat :=
  (visits.filter fun visit => visit.1 = node).getLast?.map Prod.snd

section NodeTable

variable (visits : List (L2L3Node × Nat))

@[simp] theorem length_nodeOffsets : (nodeOffsets visits).length = nodes.length := by
  rw [nodeOffsets]
  induction visits using List.reverseRecOn with
  | nil => rfl
  | append_singleton visits visit inductionHypothesis =>
      rw [List.foldl_append]
      exact List.length_set.trans inductionHypothesis

theorem nodeId_inj {node other : L2L3Node} (same : nodeId node = nodeId other) : node = other := by
  have found := getElem?_nodes_nodeId node
  rw [same, getElem?_nodes_nodeId] at found
  exact (Option.some.inj found).symm

/-- The node table holds the last offset of every node. -/
theorem getElem?_nodeOffsets (node : L2L3Node) :
    (nodeOffsets visits)[nodeId node]? = some (lastOffset visits node) := by
  induction visits using List.reverseRecOn with
  | nil => exact List.getElem?_replicate_of_lt (nodeId_lt node)
  | append_singleton visits visit inductionHypothesis =>
      have step : nodeOffsets (visits ++ [visit]) =
          (nodeOffsets visits).set (nodeId visit.1) (some visit.2) := List.foldl_append
      have inside : nodeId visit.1 < (nodeOffsets visits).length := by
        rw [length_nodeOffsets]
        exact nodeId_lt visit.1
      rw [step, lastOffset, List.filter_append]
      by_cases same : visit.1 = node
      · subst same
        rw [List.getElem?_set_self inside]
        simp
      · have other : nodeId visit.1 ≠ nodeId node := fun equal => same (nodeId_inj equal)
        rw [List.getElem?_set_ne other, inductionHypothesis, lastOffset]
        simp [same]

theorem lastOffset_mem {node : L2L3Node} {off : Nat}
    (last : lastOffset visits node = some off) : (node, off) ∈ visits := by
  rcases Option.map_eq_some_iff.mp last with ⟨visit, found, rfl⟩
  rcases List.mem_filter.mp (List.mem_of_getLast? found) with ⟨member, same⟩
  obtain rfl := of_decide_eq_true same
  exact member

end NodeTable

/-! ### The value a predicate compares -/

section Value

variable {pkt : Bytes} {ref : FieldRef} {node : L2L3Node} {field : Field}

/-- The node table of a packet. -/
def offsetsOf (pkt : Bytes) : NodeOffsets := nodeOffsets (walk l2l3 kEthRoot pkt).visits

/-- A field inside its node's spec is read in the last header of the node. -/
theorem predicateValue_inSpec (pkt : Bytes) (found : nodes[ref.nodeId]? = some node)
    (inSpec : ref.offset + ref.byteWidth ≤ specSize node.spec) :
    predicateValue (guardedByte pkt 0 pkt.length) (offsetsOf pkt) ref =
      some ((lastOffset (walk l2l3 kEthRoot pkt).visits node).map
        fun off => readFieldRuntime pkt off ref) := by
  rw [predicateValue, eq_nodeId found, offsetsOf, getElem?_nodeOffsets]
  cases last : lastOffset (walk l2l3 kEthRoot pkt).visits node with
  | none => rfl
  | some off =>
      have fits : off + specSize node.spec ≤ pkt.length :=
        fits_of_mem_visits (lastOffset_mem _ last)
      have read := readFieldRuntimeM_guarded pkt ref (Nat.zero_le off)
        (by omega : off + (ref.offset + ref.byteWidth) ≤ pkt.length)
      dsimp only [bind, Option.bind]
      rw [read]
      rfl

/-- The compared value is the unsigned word of the field in the last header of
its node. -/
theorem predicateValue_eq (pkt : Bytes) (refers : RefersTo ref node field) :
    predicateValue (guardedByte pkt 0 pkt.length) (offsetsOf pkt) ref =
      some ((lastOffset (walk l2l3 kEthRoot pkt).visits node).map
        fun off => readUint pkt off field) := by
  have found : nodes[ref.nodeId]? = some node := by
    rw [refers.2.1]
    exact getElem?_nodes_nodeId node
  rw [predicateValue_inSpec pkt found refers.endOffset_le]
  simp only [readFieldRuntime_eq refers]

theorem evalPredicate_eq (refers : RefersTo ref node field) (op : CmpOp) (operand : Nat) :
    evalPredicate (guardedByte pkt 0 pkt.length) (offsetsOf pkt) ⟨ref, op, operand⟩ =
      some ((lastOffset (walk l2l3 kEthRoot pkt).visits node).elim false
        fun off => cmpApply (readUint pkt off field) op operand) := by
  rw [evalPredicate, predicateValue_eq pkt refers]
  cases lastOffset (walk l2l3 kEthRoot pkt).visits node <;> rfl

end Value

/-! ### The value that decoding stores -/

/-- The integer in a scalar or bit-field column. -/
def storedInt : FieldValue → Int
  | .uint value => value
  | .int value => value
  | .bytes _ => 0

/-- The column that decoding the packet into empty tables gives the field. -/
def storedColumn (pkt : Bytes) (packetId : Nat) (node : L2L3Node)
    (index : Fin node.spec.length) : List FieldValue :=
  dagDecodePacket l2l3 kEthRoot packetId pkt (fun _ => []) (.field node index)

theorem storedColumn_eq (pkt : Bytes) (packetId : Nat) (node : L2L3Node)
    (index : Fin node.spec.length) :
    storedColumn pkt packetId node index =
      ((walk l2l3 kEthRoot pkt).visits.filter fun visit => visit.1 = node).map fun visit =>
        readField pkt visit.2 (node.spec.get index) := by
  have rows := dagDecodePacket_eq (G := l2l3) kEthRoot ⟨pkt, packetId⟩ fun _ => []
  rw [storedColumn, rows, Store.appendAll_apply, List.nil_append, cellsOf, dagRows,
    List.filter_map, List.map_map]
  rfl

/-- The last stored value is read from the last header of the node. -/
theorem getLast?_storedColumn (pkt : Bytes) (packetId : Nat) (node : L2L3Node)
    (index : Fin node.spec.length) :
    (storedColumn pkt packetId node index).getLast? =
      (lastOffset (walk l2l3 kEthRoot pkt).visits node).map fun off =>
        readField pkt off (node.spec.get index) := by
  rw [storedColumn_eq, List.getLast?_map, lastOffset, Option.map_map]
  rfl

/-- The field is signed and the sign bit of the word at `off` is set. -/
def signBitSet (pkt : Bytes) (off : Nat) (field : Field) : Bool :=
  match field.kind with
  | .scalar n true _ => decide (2 ^ (8 * n - 1) ≤ readUint pkt off field)
  | _ => false

/-- The stored integer is the unsigned word unless the sign bit is set. -/
theorem storedInt_readField_iff {pkt : Bytes} {off : Nat} {field : Field} {ref : FieldRef}
    {node : L2L3Node} (refers : RefersTo ref node field) :
    storedInt (readField pkt off field) = (readUint pkt off field : Int) ↔
      signBitSet pkt off field = false := by
  rcases refers with ⟨-, -, -, kind⟩
  rcases field with ⟨name, offset, fieldKind⟩
  cases fieldKind with
  | bytes count => exact absurd kind id
  | bits storageSize bitOffset width order => exact iff_of_true rfl rfl
  | scalar size signed order =>
      cases signed with
      | false => exact iff_of_true rfl rfl
      | true =>
          generalize word : readUint pkt off ⟨name, offset, .scalar size true order⟩ = value
          have stored : storedInt (readField pkt off ⟨name, offset, .scalar size true order⟩) =
              signedOfWord size value := congrArg (signedOfWord size) word
          rw [stored, signedOfWord, signBitSet]
          dsimp only
          rw [word, decide_eq_false_iff_not, Nat.not_le]
          have modulus : (0 : Int) < 2 ^ (8 * size) := Int.pow_pos (by decide)
          constructor
          · intro same
            by_contra negative
            rw [if_neg negative] at same
            omega
          · intro small
            exact if_pos small

/-! ### Evaluation and decoding -/

/-- The comparison of the source's integers. -/
def CmpOp.holds (op : CmpOp) (a b : Int) : Bool :=
  match op with
  | .eq => a == b
  | .lt => a < b
  | .gt => b < a
  | .le => a ≤ b
  | .ge => b ≤ a

theorem cmpApply_eq_holds (v : Nat) (op : CmpOp) (o : Nat) :
    cmpApply v op o = op.holds (v : Int) (o : Int) := by
  rw [Bool.eq_iff_iff]
  cases op <;> simp only [cmpApply, CmpOp.holds, beq_iff_eq, decide_eq_true_eq] <;> omega

/-- A predicate on the field compares what decoding stores last, and is false
exactly when that comparison fails or nothing was stored. -/
structure EvaluatesDecoded (pkt : Bytes) (packetId : Nat) (ref : FieldRef) (node : L2L3Node)
    (index : Fin node.spec.length) : Prop where
  value : ∃ value, predicateValue (guardedByte pkt 0 pkt.length) (offsetsOf pkt) ref = some value ∧
    value.map (fun v : Nat => (v : Int)) =
      (storedColumn pkt packetId node index).getLast?.map storedInt
  verdict : ∀ op operand, operand < 2 ^ ref.bits →
    evalPredicate (guardedByte pkt 0 pkt.length) (offsetsOf pkt) ⟨ref, op, operand⟩ =
      some ((storedColumn pkt packetId node index).getLast?.elim false fun stored =>
        op.holds (storedInt stored) operand)

/-- The field is signed and negative in the last header of its node. -/
def NegativeInLast (pkt : Bytes) (node : L2L3Node) (index : Fin node.spec.length) : Prop :=
  ∃ off, lastOffset (walk l2l3 kEthRoot pkt).visits node = some off ∧
    signBitSet pkt off (node.spec.get index) = true

theorem evaluatesDecoded_of_refersTo {pkt : Bytes} {packetId : Nat} {ref : FieldRef}
    {node : L2L3Node} {index : Fin node.spec.length}
    (refers : RefersTo ref node (node.spec.get index)) :
    EvaluatesDecoded pkt packetId ref node index ↔ ¬ NegativeInLast pkt node index := by
  have compared := predicateValue_eq pkt refers
  constructor
  · rintro ⟨⟨value, read, same⟩, -⟩ ⟨off, last, negative⟩
    rw [compared, last] at read
    rw [← Option.some.inj read, getLast?_storedColumn, last] at same
    have word := (storedInt_readField_iff refers).mp (Option.some.inj same).symm
    rw [negative] at word
    contradiction
  · intro notNegative
    have stored : ∀ off, lastOffset (walk l2l3 kEthRoot pkt).visits node = some off →
        storedInt (readField pkt off (node.spec.get index)) =
          (readUint pkt off (node.spec.get index) : Int) := by
      intro off last
      apply (storedInt_readField_iff refers).mpr
      by_contra negative
      exact notNegative ⟨off, last, (Bool.not_eq_false _).mp negative⟩
    constructor
    · refine ⟨_, compared, ?_⟩
      rw [getLast?_storedColumn]
      cases last : lastOffset (walk l2l3 kEthRoot pkt).visits node with
      | none => rfl
      | some off => exact congrArg some (stored off last).symm
    · intro op operand _
      rw [evalPredicate_eq refers, getLast?_storedColumn]
      cases last : lastOffset (walk l2l3 kEthRoot pkt).visits node with
      | none => rfl
      | some off =>
          dsimp only [Option.elim_some, Option.map_some]
          rw [cmpApply_eq_holds, stored off last]

/-- Every catalogued field is one column of one node, and predicates on it are
evaluated on the decoded value exactly when that is not negative. -/
theorem evaluatesDecoded_iff {e : CatalogEntry} (catalogued : e ∈ buildL2l3Catalog) :
    ∃ (node : L2L3Node) (index : Fin node.spec.length),
      e.node = kL2L3NodeNames.getD (nodeId node) "" ∧ e.field = (node.spec.get index).name ∧
        ∀ pkt packetId, EvaluatesDecoded pkt packetId e.ref node index ↔
          ¬ NegativeInLast pkt node index := by
  rcases mem_buildL2l3Catalog.mp catalogued with ⟨node, field, inSpec, made, nodeName, fieldName⟩
  have refers := refersTo_of_fieldToRef inSpec made
  rcases List.mem_iff_get.mp inSpec with ⟨index, rfl⟩
  exact ⟨node, index, nodeName, fieldName, fun pkt packetId => evaluatesDecoded_of_refersTo refers⟩

/-- The catalog entry of `gptp.log_message_interval`, an `int8_t`. -/
def logMessageInterval : CatalogEntry :=
  ⟨"gptp", "log_message_interval", ⟨6, 33, 1, true, false, 0, 0⟩⟩

theorem evaluatesDecoded_iff_logMessageInterval :
    ∃ (node : L2L3Node) (index : Fin node.spec.length),
      logMessageInterval.node = kL2L3NodeNames.getD (nodeId node) "" ∧
        logMessageInterval.field = (node.spec.get index).name ∧
          ∀ pkt packetId, EvaluatesDecoded pkt packetId logMessageInterval.ref node index ↔
            ¬ NegativeInLast pkt node index :=
  evaluatesDecoded_iff (by decide +kernel : logMessageInterval ∈ buildL2l3Catalog)

/-- An Ethernet frame with a PTP header whose message interval is -1. -/
def ptpPacket : Bytes :=
  List.replicate 12 0 ++ [0x88, 0xF7] ++ List.replicate 33 0 ++ [0xFF]

/-- The predicate compares 255 where decoding stores -1. -/
theorem evaluatesDecoded_fails :
    logMessageInterval ∈ buildL2l3Catalog ∧
      L2L3Node.gptp.spec.get ⟨11, by decide⟩ = intField "log_message_interval" 33 1 ∧
        ¬ EvaluatesDecoded ptpPacket 0 logMessageInterval.ref .gptp ⟨11, by decide⟩ := by
  refine ⟨by decide +kernel, by decide, fun evaluates => ?_⟩
  rcases evaluates.value with ⟨value, read, same⟩
  have compared : predicateValue (guardedByte ptpPacket 0 ptpPacket.length) (offsetsOf ptpPacket)
      logMessageInterval.ref = some (some 255) := by decide +kernel
  have stored : storedColumn ptpPacket 0 .gptp ⟨11, by decide⟩ = [.int (-1)] := by decide +kernel
  rw [compared] at read
  rw [← Option.some.inj read, stored] at same
  contradiction

end Nanotins.Dpar
