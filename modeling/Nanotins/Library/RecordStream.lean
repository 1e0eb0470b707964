import Nanotins.Library.Drain

/-!
Contract: iterators that take records off the front of a text.

Owns: the unbounded walk of an iterator, grammars of record streams in which a
closing record may end the stream before its text does, and that an iterator
which takes exactly the grammar's records decodes the texts of records
(`ReadBy.walk_of_encodes`) and takes any text apart into the records it reports
(`ReadBy.consumed_of_walk`).

Does not own: any grammar.
-/

namespace Nanotins.Library

variable {σ α ι β : Type}

/-! ### Walks -/

/-- `while (next)`: the items taken and the state in which `next` gives none. -/
inductive Walk (next : σ → Option (α × σ)) : σ → List α → σ → Prop where
  | stop {state : σ} (ended : next state = none) : Walk next state [] state
  | step {state behind final : σ} {item : α} {items : List α}
      (taken : next state = some (item, behind)) (continued : Walk next behind items final) :
      Walk next state (item :: items) final

namespace Walk

variable {next : σ → Option (α × σ)} {state final : σ} {items : List α}

theorem ended (walk : Walk next state items final) : next final = none := by
  induction walk with
  | stop ended => exact ended
  | step _ _ inductionHypothesis => exact inductionHypothesis

theorem unique {other : List α} {end' : σ} (walk : Walk next state items final)
    (again : Walk next state other end') : items = other := by
  induction walk generalizing other with
  | stop ended =>
      cases again with
      | stop _ => rfl
      | step taken _ =>
          rw [ended] at taken
          contradiction
  | step taken continued inductionHypothesis =>
      cases again with
      | stop ended =>
          rw [taken] at ended
          contradiction
      | step taken' continued' =>
          rw [taken] at taken'
          cases taken'
          exact congrArg _ (inductionHypothesis continued')

/-- The bounded loop takes the items of the walk, given fuel for all of them. -/
theorem drain_eq (walk : Walk next state items final) {fuel : Nat} (enough : items.length ≤ fuel) :
    drain next fuel state = items := by
  induction walk generalizing fuel with
  | stop ended => exact drain_of_none fuel ended
  | step taken continued inductionHypothesis =>
      rw [List.length_cons] at enough
      obtain ⟨fuel, rfl⟩ : ∃ fewer, fuel = fewer + 1 := ⟨fuel - 1, by omega⟩
      rw [drain_of_some _ taken, inductionHypothesis (Nat.le_of_succ_le_succ enough)]

/-- What holds of every item that a state satisfying the invariant gives. -/
theorem forall_mem (Invariant : σ → Prop) (Good : α → Prop)
    (preserved : ∀ {state behind item}, Invariant state → next state = some (item, behind) →
      Good item ∧ Invariant behind)
    (walk : Walk next state items final) (holds : Invariant state) :
    (∀ item ∈ items, Good item) ∧ Invariant final := by
  induction walk with
  | stop ended => exact ⟨List.forall_mem_nil _, holds⟩
  | step taken continued inductionHypothesis =>
      obtain ⟨good, still⟩ := preserved holds taken
      obtain ⟨others, last⟩ := inductionHypothesis still
      exact ⟨List.forall_mem_cons.mpr ⟨good, others⟩, last⟩

end Walk

/-! ### Grammars -/

/-- Records and closing records by their texts; whatever follows a closing record
is not looked at. -/
structure RecordGrammar (ι β : Type) where
  Record : ι → List β → Prop
  Closing : ι → List β → Prop
  record_ne_nil : ∀ {item text}, Record item text → text ≠ []
  closing_ne_nil : ∀ {item text}, Closing item text → text ≠ []

namespace RecordGrammar

variable (G : RecordGrammar ι β)

/-- The texts of a list of records. -/
inductive Encodes : List ι → List β → Prop where
  | nil : Encodes [] []
  | cons {item : ι} {items : List ι} {text more : List β} (record : G.Record item text)
      (others : Encodes items more) : Encodes (item :: items) (text ++ more)

/-- No record stands at the front. -/
def Stuck (left : List β) : Prop :=
  ∀ item text more, left = text ++ more → ¬ G.Record item text ∧ ¬ G.Closing item text

variable {G}

theorem stuck_nil : G.Stuck [] := by
  intro item text more split
  obtain ⟨rfl, -⟩ := List.append_eq_nil_iff.mp split.symm
  exact ⟨fun record => G.record_ne_nil record rfl, fun closing => G.closing_ne_nil closing rfl⟩

theorem encodes_iff {Legal : ι → Prop} {encode : ι → List β}
    (records : ∀ item text, G.Record item text ↔ Legal item ∧ text = encode item)
    (items : List ι) (text : List β) :
    G.Encodes items text ↔ (∀ item ∈ items, Legal item) ∧ text = items.flatMap encode := by
  constructor
  · intro encodes
    induction encodes with
    | nil => exact ⟨List.forall_mem_nil _, rfl⟩
    | cons record others inductionHypothesis =>
        obtain ⟨legal, rfl⟩ := (records _ _).mp record
        exact ⟨List.forall_mem_cons.mpr ⟨legal, inductionHypothesis.1⟩,
          by rw [List.flatMap_cons, ← inductionHypothesis.2]⟩
  · intro written
    obtain ⟨legal, rfl⟩ := written
    induction items with
    | nil => exact .nil
    | cons item items inductionHypothesis =>
        obtain ⟨first, others⟩ := List.forall_mem_cons.mp legal
        exact .cons ((records _ _).mpr ⟨first, rfl⟩) (inductionHypothesis others)

/-- Records that are written in one of several ways. -/
theorem encodes_marked_iff {Mark : Type} {Legal : ι → Prop} {encode : Mark → ι → List β}
    (records : ∀ item text, G.Record item text ↔ Legal item ∧ ∃ mark, text = encode mark item)
    (items : List ι) (text : List β) :
    G.Encodes items text ↔ ∃ marked : List (Mark × ι), marked.map Prod.snd = items ∧
      (∀ item ∈ marked, Legal item.2) ∧ text = marked.flatMap fun item => encode item.1 item.2 := by
  constructor
  · intro encodes
    induction encodes with
    | nil => exact ⟨[], rfl, List.forall_mem_nil _, rfl⟩
    | cons record others inductionHypothesis =>
        obtain ⟨legal, mark, rfl⟩ := (records _ _).mp record
        obtain ⟨marked, rfl, allLegal, rfl⟩ := inductionHypothesis
        exact ⟨(mark, _) :: marked, rfl, List.forall_mem_cons.mpr ⟨legal, allLegal⟩,
          by rw [List.flatMap_cons]⟩
  · intro written
    obtain ⟨marked, rfl, legal, rfl⟩ := written
    induction marked with
    | nil => exact .nil
    | cons item marked inductionHypothesis =>
        obtain ⟨first, others⟩ := List.forall_mem_cons.mp legal
        exact .cons ((records _ _).mpr ⟨first, item.1, rfl⟩) (inductionHypothesis others)

/-! ### Iterators of a grammar -/

/-- From states with the invariant, the iterator takes a record off the text at
its state exactly when one stands there. -/
structure ReadBy (G : RecordGrammar ι β) (Invariant : σ → Prop) (next : σ → Option (α × σ))
    (shown : α → ι) (rest : σ → List β) : Prop where
  preserved : ∀ {state behind item}, Invariant state → next state = some (item, behind) →
    Invariant behind
  sound : ∀ {state behind item}, Invariant state → next state = some (item, behind) →
    (∃ text, G.Record (shown item) text ∧ rest state = text ++ rest behind) ∨
      ∃ text padding, G.Closing (shown item) text ∧ rest state = text ++ padding ∧
        rest behind = []
  record : ∀ {state item text more}, Invariant state → G.Record item text →
    rest state = text ++ more →
    ∃ taken behind, next state = some (taken, behind) ∧ shown taken = item ∧ rest behind = more
  closing : ∀ {state item text padding}, Invariant state → G.Closing item text →
    rest state = text ++ padding →
    ∃ taken behind, next state = some (taken, behind) ∧ shown taken = item ∧ rest behind = []

namespace ReadBy

variable {Invariant : σ → Prop} {next : σ → Option (α × σ)} {shown : α → ι} {rest : σ → List β}
  (readBy : G.ReadBy Invariant next shown rest) {state : σ}

include readBy

theorem length_lt {behind : σ} {item : α} (holds : Invariant state)
    (taken : next state = some (item, behind)) :
    (rest behind).length < (rest state).length := by
  rcases readBy.sound holds taken with
    ⟨text, record, split⟩ | ⟨text, padding, closing, split, empty⟩
  · have := List.length_pos_iff.mpr (G.record_ne_nil record)
    rw [split, List.length_append]
    omega
  · have := List.length_pos_iff.mpr (G.closing_ne_nil closing)
    rw [split, List.length_append, empty, List.length_nil]
    omega

/-- The iterator stops exactly where no record stands. -/
theorem next_eq_none_iff (holds : Invariant state) : next state = none ↔ G.Stuck (rest state) := by
  constructor
  · intro ended item text more split
    constructor
    · intro record
      obtain ⟨taken, behind, found, -⟩ := readBy.record holds record split
      rw [ended] at found
      contradiction
    · intro closing
      obtain ⟨taken, behind, found, -⟩ := readBy.closing holds closing split
      rw [ended] at found
      contradiction
  · intro stuck
    cases step : next state with
    | none => rfl
    | some taken =>
        rcases readBy.sound holds step with
          ⟨text, record, split⟩ | ⟨text, padding, closing, split, -⟩
        · exact absurd record (stuck _ _ _ split).1
        · exact absurd closing (stuck _ _ _ split).2

theorem exists_walk (holds : Invariant state) :
    ∃ items final, Walk next state items final := by
  induction bound : (rest state).length using Nat.strongRecOn generalizing state with
  | ind n inductionHypothesis =>
      cases step : next state with
      | none => exact ⟨[], state, .stop step⟩
      | some taken =>
          have smaller := readBy.length_lt holds step
          rw [bound] at smaller
          obtain ⟨items, final, continued⟩ :=
            inductionHypothesis _ smaller (readBy.preserved holds step) rfl
          exact ⟨taken.1 :: items, final, .step step continued⟩

theorem length_le {items : List α} {final : σ} (walk : Walk next state items final)
    (holds : Invariant state) : items.length ≤ (rest state).length := by
  induction walk with
  | stop ended => exact Nat.zero_le _
  | step taken continued inductionHypothesis =>
      have shorter := readBy.length_lt holds taken
      have others := inductionHypothesis (readBy.preserved holds taken)
      rw [List.length_cons]
      omega

/-- The text of records is decoded, whatever is walked behind it. -/
theorem walk_of_encodes {items : List ι} {text more : List β} (encodes : G.Encodes items text)
    {tail : List ι}
    (ending : ∀ {state}, Invariant state → rest state = more →
      ∃ taken final, Walk next state taken final ∧ taken.map shown = tail)
    (holds : Invariant state) (split : rest state = text ++ more) :
    ∃ taken final, Walk next state taken final ∧ taken.map shown = items ++ tail := by
  induction encodes generalizing state with
  | nil => exact ending holds split
  | cons record others inductionHypothesis =>
      rw [List.append_assoc] at split
      obtain ⟨taken, behind, found, rfl, left⟩ := readBy.record holds record split
      obtain ⟨items, final, continued, same⟩ :=
        inductionHypothesis (readBy.preserved holds found) left
      exact ⟨taken :: items, final, .step found continued, congrArg (shown taken :: ·) same⟩

/-- At the end of the text nothing is taken. -/
theorem walk_of_nil (holds : Invariant state) (empty : rest state = []) :
    ∃ taken final, Walk next state taken final ∧ taken.map shown = [] := by
  refine ⟨[], state, .stop ?_, rfl⟩
  rw [readBy.next_eq_none_iff holds, empty]
  exact stuck_nil

/-- A closing record is the last one taken. -/
theorem walk_of_closing {item : ι} {text padding : List β} (closing : G.Closing item text)
    (holds : Invariant state) (split : rest state = text ++ padding) :
    ∃ taken final, Walk next state taken final ∧ taken.map shown = [item] := by
  obtain ⟨taken, behind, found, rfl, empty⟩ := readBy.closing holds closing split
  obtain ⟨others, final, continued, none⟩ :=
    readBy.walk_of_nil (readBy.preserved holds found) empty
  exact ⟨taken :: others, final, .step found continued, congrArg (shown taken :: ·) none⟩

/-- The records at the front of a text are the first ones taken. -/
theorem prefix_of_encodes {items : List ι} {text more : List β} (encodes : G.Encodes items text)
    {taken : List α} {final : σ} (walk : Walk next state taken final) (holds : Invariant state)
    (split : rest state = text ++ more) : items <+: taken.map shown := by
  induction encodes generalizing state taken with
  | nil => exact List.nil_prefix
  | cons record others inductionHypothesis =>
      rw [List.append_assoc] at split
      obtain ⟨item, behind, found, rfl, left⟩ := readBy.record holds record split
      cases walk with
      | stop ended =>
          rw [found] at ended
          contradiction
      | step first continued =>
          rw [found] at first
          cases first
          rw [List.map_cons, List.prefix_cons_inj]
          exact inductionHypothesis continued (readBy.preserved holds found) left

/-- Any text is taken apart into the text of the records reported and what is
left: where no record stands, or behind a closing record. -/
theorem consumed_of_walk {items : List α} {final : σ} (walk : Walk next state items final)
    (holds : Invariant state) :
    ∃ front consumed, G.Encodes front consumed ∧
      ((items.map shown = front ∧ rest state = consumed ++ rest final ∧ G.Stuck (rest final)) ∨
        ∃ item text padding, G.Closing item text ∧ items.map shown = front ++ [item] ∧
          rest state = consumed ++ (text ++ padding) ∧ rest final = []) := by
  induction walk with
  | stop ended => exact ⟨[], [], .nil, .inl ⟨rfl, rfl, (readBy.next_eq_none_iff holds).mp ended⟩⟩
  | @step state behind final item items taken continued inductionHypothesis =>
      have still := readBy.preserved holds taken
      rcases readBy.sound holds taken with
        ⟨text, record, split⟩ | ⟨text, padding, closing, split, empty⟩
      · obtain ⟨front, consumed, encodes, ending⟩ := inductionHypothesis still
        refine ⟨shown item :: front, text ++ consumed, .cons record encodes, ?_⟩
        rw [split, List.map_cons]
        rcases ending with ⟨rfl, rest, stuck⟩ | ⟨last, closing, padding, closes, same, rest, done⟩
        · exact .inl ⟨rfl, by rw [rest, List.append_assoc], stuck⟩
        · exact .inr ⟨last, closing, padding, closes, congrArg (shown item :: ·) same,
            by rw [rest, List.append_assoc], done⟩
      · -- nothing is left to take behind a closing record
        have ended : next behind = none := by
          rw [readBy.next_eq_none_iff still, empty]
          exact stuck_nil
        cases continued with
        | stop _ => exact ⟨[], [], .nil, .inr ⟨_, text, padding, closing, rfl, split, empty⟩⟩
        | step more _ =>
            rw [ended] at more
            contradiction

end ReadBy

end RecordGrammar

end Nanotins.Library
