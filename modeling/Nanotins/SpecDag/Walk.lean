import Nanotins.Wire.Spec

/-!
Contract: walking a packet through a graph of header nodes, as `walk` in
`spec_dag.hpp` does.

Owns: graphs, edge tables, the bounded walk over an arbitrary byte reader, the
nodes that a walk never leaves, the chain of headers of a packet, and the
equivalence of the walk's visits with the first `kMaxWalkSteps` headers of the
chain.

Does not own: any concrete node.

The visitor of the source returns nothing, so a call of `walk` is modelled by
the list of its visits, in order, and the values it returns.
-/

namespace Nanotins.SpecDag

open Nanotins.Library Nanotins.Wire

/-- A graph of header nodes.  `advance` and `next` read the header at an offset;
`next` returns `none` for the id -1. -/
structure Graph (m : Type → Type) where
  Node : Type
  spec : Node → WireSpec
  advance : (Nat → m UInt8) → Nat → Node → m Nat
  next : (Nat → m UInt8) → Nat → Node → m (Option Node)
  [decEqNode : DecidableEq Node]

attribute [instance] Graph.decEqNode

/-- Scan the whole edge table; a later hit overwrites an earlier one. -/
def matchEdges {Node : Type} (edges : List (Nat × Node)) (key : Nat) : Option Node :=
  edges.foldl (fun target edge => if key = edge.1 then some edge.2 else target) none

private theorem foldl_edges_mem {Node : Type} {edges : List (Nat × Node)} {key : Nat}
    {node : Node} {target : Option Node}
    (hit : edges.foldl (fun target edge => if key = edge.1 then some edge.2 else target) target =
      some node) : target = some node ∨ (key, node) ∈ edges := by
  induction edges generalizing target with
  | nil => exact .inl hit
  | cons edge edges inductionHypothesis =>
      rw [List.foldl_cons] at hit
      rcases inductionHypothesis hit with here | later
      · by_cases same : key = edge.1
        · rw [if_pos same] at here
          cases here
          exact .inr (by simp [same])
        · rw [if_neg same] at here
          exact .inl here
      · exact .inr (List.mem_cons_of_mem edge later)

/-- A match is an edge of the table. -/
theorem matchEdges_mem {Node : Type} {edges : List (Nat × Node)} {key : Nat} {node : Node}
    (hit : matchEdges edges key = some node) : (key, node) ∈ edges := by
  rcases foldl_edges_mem hit with none | member
  · contradiction
  · exact member

def kMaxWalkSteps : Nat := 32

/-- The visits of a walk, and its `walk_result`. -/
structure Walk (Node : Type) where
  visits : List (Node × Nat)
  consumed : Nat
  steps : Nat
deriving DecidableEq, Repr

section Monadic

variable {m : Type → Type} [Monad m]

/-- The walk loop with `fuel` steps left.  `consumed` is the offset of the
current node whenever the loop stops. -/
def walkFromM (G : Graph m) (rd : Nat → m UInt8) (size : Nat) :
    Nat → Option G.Node → Nat → m (Walk G.Node)
  | 0, _, off => pure ⟨[], off, 0⟩
  | _ + 1, none, off => pure ⟨[], off, 0⟩
  | fuel + 1, some node, off => do
      if size < off + specSize (G.spec node) then
        return ⟨[], off, 0⟩
      let adv ← G.advance rd off node
      let next ← G.next rd off node
      let rest ← walkFromM G rd size fuel next (off + adv)
      return ⟨(node, off) :: rest.visits, rest.consumed, rest.steps + 1⟩

def walkM (G : Graph m) (rd : Nat → m UInt8) (size : Nat) (root : G.Node) : m (Walk G.Node) :=
  walkFromM G rd size kMaxWalkSteps (some root) 0

end Monadic

variable {G : Graph Id} {pkt : Bytes}

def walkFrom (G : Graph Id) (pkt : Bytes) (fuel : Nat) (node : Option G.Node) (off : Nat) :
    Walk G.Node :=
  Id.run (walkFromM G (byteAt pkt) pkt.length fuel node off)

def walk (G : Graph Id) (root : G.Node) (pkt : Bytes) : Walk G.Node :=
  walkFrom G pkt kMaxWalkSteps (some root) 0

/-- The offset behind the header at `off`. -/
def Graph.after (G : Graph Id) (pkt : Bytes) (off : Nat) (node : G.Node) : Nat :=
  off + Id.run (G.advance (byteAt pkt) off node)

/-- The node that the header at `off` dispatches to. -/
def Graph.follow (G : Graph Id) (pkt : Bytes) (off : Nat) (node : G.Node) : Option G.Node :=
  Id.run (G.next (byteAt pkt) off node)

/-- The fixed part of the header fits. -/
def Graph.Fits (G : Graph Id) (pkt : Bytes) (off : Nat) (node : G.Node) : Prop :=
  off + specSize (G.spec node) ≤ pkt.length

instance (pkt : Bytes) (off : Nat) (node : G.Node) : Decidable (G.Fits pkt off node) :=
  inferInstanceAs (Decidable (_ ≤ _))

@[simp] theorem walkFrom_zero (node : Option G.Node) (off : Nat) :
    walkFrom G pkt 0 node off = ⟨[], off, 0⟩ :=
  rfl

@[simp] theorem walkFrom_none (fuel off : Nat) :
    walkFrom G pkt fuel none off = ⟨[], off, 0⟩ := by
  cases fuel <;> rfl

theorem walkFrom_of_fits {fuel off : Nat} {node : G.Node} (fits : G.Fits pkt off node) :
    walkFrom G pkt (fuel + 1) (some node) off =
      let rest := walkFrom G pkt fuel (G.follow pkt off node) (G.after pkt off node)
      ⟨(node, off) :: rest.visits, rest.consumed, rest.steps + 1⟩ := by
  have whole : ¬ pkt.length < off + specSize (G.spec node) := Nat.not_lt.mpr fits
  rw [walkFrom, walkFromM, if_neg whole]
  rfl

theorem walkFrom_of_not_fits {fuel off : Nat} {node : G.Node} (cut : ¬ G.Fits pkt off node) :
    walkFrom G pkt fuel (some node) off = ⟨[], off, 0⟩ := by
  cases fuel with
  | zero => rfl
  | succ fuel => exact if_pos (Nat.not_le.mp cut)

/-- A walk from nodes that lead to each other only visits no other node. -/
theorem forall_mem_visits_walkFrom {P : G.Node → Prop}
    (closed : ∀ off node target, P node → G.follow pkt off node = some target → P target)
    {fuel off : Nat} {start : Option G.Node} (first : ∀ node ∈ start, P node) :
    ∀ visit ∈ (walkFrom G pkt fuel start off).visits, P visit.1 := by
  induction fuel generalizing start off with
  | zero => exact List.forall_mem_nil _
  | succ fuel inductionHypothesis =>
      cases start with
      | none => exact List.forall_mem_nil _
      | some node =>
          by_cases fits : G.Fits pkt off node
          · rw [walkFrom_of_fits fits]
            refine List.forall_mem_cons.mpr ⟨first node rfl, ?_⟩
            apply inductionHypothesis
            exact fun target edge => closed off node target (first node rfl) edge
          · rw [walkFrom_of_not_fits fits]
            exact List.forall_mem_nil _

/-! ### The header chain -/

/-- `HeaderAt G pkt start off₀ k node off`: following the headers from `start`
at `off₀`, the `k`-th is a whole `node` header at `off`. -/
inductive HeaderAt (G : Graph Id) (pkt : Bytes) (start : G.Node) (origin : Nat) :
    Nat → G.Node → Nat → Prop where
  | first (fits : G.Fits pkt origin start) : HeaderAt G pkt start origin 0 start origin
  | next {k off : Nat} {node target : G.Node} (reached : HeaderAt G pkt start origin k node off)
      (edge : G.follow pkt off node = some target)
      (fits : G.Fits pkt (G.after pkt off node) target) :
      HeaderAt G pkt start origin (k + 1) target (G.after pkt off node)

namespace HeaderAt

variable {start : G.Node} {origin k off : Nat} {node : G.Node}

theorem fits (reached : HeaderAt G pkt start origin k node off) : G.Fits pkt off node := by
  cases reached with
  | first fits => exact fits
  | next _ _ fits => exact fits

theorem start_fits (reached : HeaderAt G pkt start origin k node off) :
    G.Fits pkt origin start := by
  induction reached with
  | first fits => exact fits
  | next _ _ _ inductionHypothesis => exact inductionHypothesis

/-- The chain from the second header on. -/
theorem tail {target : G.Node} (whole : G.Fits pkt origin start)
    (edge : G.follow pkt origin start = some target)
    (reached : HeaderAt G pkt target (G.after pkt origin start) k node off) :
    HeaderAt G pkt start origin (k + 1) node off := by
  induction reached with
  | first fits => exact .next (.first whole) edge fits
  | next _ further fits inductionHypothesis => exact .next inductionHypothesis further fits

theorem of_succ (reached : HeaderAt G pkt start origin (k + 1) node off) :
    ∃ target, G.follow pkt origin start = some target ∧
      HeaderAt G pkt target (G.after pkt origin start) k node off := by
  induction k generalizing node off with
  | zero =>
      cases reached with
      | next before edge fits =>
          cases before with
          | first _ => exact ⟨_, edge, .first fits⟩
  | succ k inductionHypothesis =>
      cases reached with
      | next before edge fits =>
          obtain ⟨target, first, chain⟩ := inductionHypothesis before
          exact ⟨target, first, .next chain edge fits⟩

/-- The header before a later one. -/
theorem pred (reached : HeaderAt G pkt start origin (k + 1) node off) :
    ∃ before place, HeaderAt G pkt start origin k before place ∧
      G.follow pkt place before = some node ∧ off = G.after pkt place before := by
  cases reached with
  | next before edge _ => exact ⟨_, _, before, edge, rfl⟩

/-- A packet has one chain. -/
theorem unique {other : G.Node} {place : Nat} (reached : HeaderAt G pkt start origin k node off)
    (again : HeaderAt G pkt start origin k other place) : node = other ∧ off = place := by
  induction k generalizing node off other place with
  | zero =>
      cases reached
      cases again
      exact ⟨rfl, rfl⟩
  | succ k inductionHypothesis =>
      obtain ⟨before, first, previous, edge, rfl⟩ := reached.pred
      obtain ⟨other, second, previous', edge', rfl⟩ := again.pred
      obtain ⟨rfl, rfl⟩ := inductionHypothesis previous previous'
      exact ⟨Option.some.inj (edge.symm.trans edge'), rfl⟩

end HeaderAt

/-- The visits are the first headers of the chain. -/
theorem getElem?_visits_walkFrom {fuel origin k off : Nat} {start node : G.Node} :
    (walkFrom G pkt fuel (some start) origin).visits[k]? = some (node, off) ↔
      k < fuel ∧ HeaderAt G pkt start origin k node off := by
  induction fuel generalizing start origin k with
  | zero => simp
  | succ fuel inductionHypothesis =>
      by_cases whole : G.Fits pkt origin start
      · rw [walkFrom_of_fits whole]
        cases k with
        | zero =>
            simp only [List.getElem?_cons_zero, Option.some.injEq, Prod.mk.injEq]
            constructor
            · rintro ⟨rfl, rfl⟩
              exact ⟨Nat.succ_pos fuel, .first whole⟩
            · rintro ⟨-, reached⟩
              cases reached
              exact ⟨rfl, rfl⟩
        | succ k =>
            rw [List.getElem?_cons_succ]
            constructor
            · intro visited
              cases edge : G.follow pkt origin start with
              | none => simp [edge] at visited
              | some target =>
                  rw [edge] at visited
                  obtain ⟨below, chain⟩ := inductionHypothesis.mp visited
                  exact ⟨Nat.succ_lt_succ below, chain.tail whole edge⟩
            · rintro ⟨below, reached⟩
              obtain ⟨target, edge, chain⟩ := reached.of_succ
              rw [edge]
              exact inductionHypothesis.mpr ⟨Nat.lt_of_succ_lt_succ below, chain⟩
      · rw [walkFrom_of_not_fits whole]
        constructor
        · intro visited
          simp at visited
        · rintro ⟨-, reached⟩
          exact absurd reached.start_fits whole

theorem getElem?_visits {root node : G.Node} {k off : Nat} :
    (walk G root pkt).visits[k]? = some (node, off) ↔
      k < kMaxWalkSteps ∧ HeaderAt G pkt root 0 k node off :=
  getElem?_visits_walkFrom

/-- Every visited header is whole. -/
theorem fits_of_mem_visits {root : G.Node} {visit : G.Node × Nat}
    (visited : visit ∈ (walk G root pkt).visits) : G.Fits pkt visit.2 visit.1 := by
  obtain ⟨k, found⟩ := List.mem_iff_getElem?.mp visited
  exact (getElem?_visits.mp found).2.fits

end Nanotins.SpecDag
