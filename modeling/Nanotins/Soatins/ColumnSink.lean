import Nanotins.Library.PartialRun
import Nanotins.Soatins.Soa

/-!
Contract: `column_sink`, the auto-flushing front end of a fixed storage.

Owns: `push` and `finish`, runs of calls with any outcomes of the flush callback,
when a run overruns its chunk (`noOverrun_iff`), and that a sink whose flushes
succeed delivers every row once and in order, all of them by a finish
(`sink_delivers`).

Does not own: what the callback does with a chunk; it leaves the chunk as it is.
-/

namespace Nanotins.Soatins

open Nanotins.Library

inductive Call (Row : Type) where
  | push (row : Row)
  | finish

section Sink

variable {Row : Type} {cols : List (Column Row)} {N : Nat}

/-- A finished call: what it was, the chunk it handed to the callback, if it did,
and what it returned. -/
structure Event (cols : List (Column Row)) (N : Nat) where
  call : Call Row
  handed : Option (Soa cols N)
  returned : Bool

/-- The chunk and the calls so far. -/
structure Sink (cols : List (Column Row)) (N : Nat) where
  chunk : Soa cols N
  history : List (Event cols N)

namespace Sink

def record (sink : Sink cols N) (call : Call Row) (chunk : Soa cols N)
    (handed : Option (Soa cols N)) (returned : Bool) : Sink cols N where
  chunk := chunk
  history := sink.history ++ [⟨call, handed, returned⟩]

/-- `flush_chunk`, where the callback returns `flushes`. -/
def flushChunk (sink : Sink cols N) (call : Call Row) (chunk : Soa cols N) (flushes : Bool) :
    Sink cols N :=
  if flushes then sink.record call chunk.clear (some chunk) true
  else sink.record call chunk (some chunk) false

def push (sink : Sink cols N) (row : Row) (flushes : Bool) : Option (Sink cols N) := do
  let (chunk, full) ← sink.chunk.append row
  if full then return sink.flushChunk (.push row) chunk flushes
  else return sink.record (.push row) chunk none true

def finish (sink : Sink cols N) (flushes : Bool) : Sink cols N :=
  if sink.chunk.size = 0 then sink.record .finish sink.chunk none true
  else sink.flushChunk .finish sink.chunk flushes

/-- One call, with what the callback returns if it is called. -/
def step (sink : Sink cols N) : Call Row × Bool → Option (Sink cols N)
  | (.push row, flushes) => sink.push row flushes
  | (.finish, flushes) => some (sink.finish flushes)

/-- A new sink, with arbitrary values in its storage. -/
def start (columns : (c : Fin cols.length) → Vector (cols.get c).elem.Value N) : Sink cols N :=
  ⟨⟨columns, 0⟩, []⟩

end Sink

/-- After a push that returned false, as long as no finish has returned true. -/
def Blocked (history : List (Event cols N)) : Bool :=
  history.foldl (fun blocked event =>
    match event.call with
    | .push _ => blocked || !event.returned
    | .finish => blocked && !event.returned) false

theorem blocked_record (sink : Sink cols N) (call : Call Row) (chunk : Soa cols N)
    (handed : Option (Soa cols N)) (returned : Bool) :
    Blocked (sink.record call chunk handed returned).history =
      match call with
      | .push _ => Blocked sink.history || !returned
      | .finish => Blocked sink.history && !returned := by
  unfold Blocked Sink.record
  rw [List.foldl_append]
  rfl

/-! ### One call -/

section Calls

variable {sink behind : Sink cols N} {row : Row} {flushes : Bool}

theorem push_of_full (full : N ≤ sink.chunk.size) : sink.push row flushes = none := by
  unfold Sink.push
  rw [Soa.append_of_full full]
  rfl

/-- A push with room stores its row, and hands the chunk over if it is full. -/
theorem push_of_lt (row : Row) (flushes : Bool) (room : sink.chunk.size < N) :
    ∃ chunk : Soa cols N, chunk.size = sink.chunk.size + 1 ∧
      (∀ c, chunk.rows c = sink.chunk.rows c ++ [(cols.get c).get row]) ∧
      sink.push row flushes = some (
        if N ≤ sink.chunk.size + 1 then sink.flushChunk (.push row) chunk flushes
        else sink.record (.push row) chunk none true) := by
  obtain ⟨chunk, appended, size, rows⟩ := Soa.append_of_lt row room
  refine ⟨chunk, size, rows, ?_⟩
  unfold Sink.push
  rw [appended]
  by_cases full : N ≤ sink.chunk.size + 1
  · rw [if_pos full, decide_eq_true full]
    rfl
  · rw [if_neg full, decide_eq_false full]
    rfl

end Calls

/-! ### Overruns -/

/-- No store leaves the chunk, which is a fault, and no chunk handed over has more
than N rows. -/
def NoOverrun (start : Sink cols N) (actions : List (Call Row × Bool)) : Prop :=
  ∃ sink, runSteps Sink.step start actions = some sink ∧
    ∀ event ∈ sink.history, ∀ chunk, event.handed = some chunk → chunk.size ≤ N

/-- No push is made after a push has returned false, until a finish has returned
true. -/
def HeedsRefusals (start : Sink cols N) (actions : List (Call Row × Bool)) : Prop :=
  ∀ before row flushes after sink, actions = before ++ (.push row, flushes) :: after →
    runSteps Sink.step start before = some sink → Blocked sink.history = false

/-- The chunk is full exactly while pushes are blocked. -/
structure SinkInvariant (sink : Sink cols N) : Prop where
  size_le : sink.chunk.size ≤ N
  blocked_iff : Blocked sink.history = true ↔ sink.chunk.size = N
  handed : ∀ event ∈ sink.history, ∀ chunk, event.handed = some chunk → chunk.size ≤ N

namespace SinkInvariant

variable {sink behind : Sink cols N} (inv : SinkInvariant sink)

include inv

theorem room_of_not_blocked (notBlocked : Blocked sink.history = false) :
    sink.chunk.size < N := by
  apply Nat.lt_of_le_of_ne inv.size_le
  intro full
  rw [inv.blocked_iff.mpr full] at notBlocked
  contradiction

theorem not_blocked_of_room (room : sink.chunk.size < N) : Blocked sink.history = false := by
  rw [← Bool.not_eq_true, inv.blocked_iff]
  omega

theorem record {call : Call Row} {chunk : Soa cols N} {handed : Option (Soa cols N)}
    {returned : Bool} (size_le : chunk.size ≤ N)
    (blocked_iff : Blocked (sink.record call chunk handed returned).history = true ↔ chunk.size = N)
    (handed_le : ∀ full, handed = some full → full.size ≤ N) :
    SinkInvariant (sink.record call chunk handed returned) where
  size_le := size_le
  blocked_iff := blocked_iff
  handed event member full here := by
    rcases List.mem_append.mp member with before | last
    · exact inv.handed event before full here
    · rw [List.mem_singleton.mp last] at here
      exact handed_le full here

theorem push (positive : 0 < N) (row : Row) (flushes : Bool) (room : sink.chunk.size < N) :
    ∃ behind, sink.push row flushes = some behind ∧ SinkInvariant behind := by
  obtain ⟨chunk, size, -, pushed⟩ := push_of_lt row flushes room
  have notBlocked := inv.not_blocked_of_room room
  refine ⟨_, pushed, ?_⟩
  split
  · next full =>
    have handed : ∀ full, some chunk = some full → full.size ≤ N := by
      intro full same
      cases same
      omega
    unfold Sink.flushChunk
    cases flushes with
    | true =>
        apply inv.record (Nat.zero_le _) _ handed
        rw [blocked_record, notBlocked, Soa.size_clear]
        simp [Nat.ne_of_lt positive]
    | false =>
        apply inv.record (by omega) _ handed
        rw [blocked_record]
        simp
        omega
  · next more =>
    apply inv.record (by omega) _ (by simp)
    rw [blocked_record, notBlocked]
    simp
    omega

theorem finish (positive : 0 < N) (flushes : Bool) : SinkInvariant (sink.finish flushes) := by
  have handed : ∀ full, some sink.chunk = some full → full.size ≤ N := by
    intro full same
    cases same
    exact inv.size_le
  unfold Sink.finish
  split
  · next empty =>
    apply inv.record inv.size_le _ (by simp)
    rw [blocked_record, empty]
    simp [Nat.ne_of_lt positive]
  · unfold Sink.flushChunk
    cases flushes with
    | true =>
        apply inv.record (Nat.zero_le _) _ handed
        rw [blocked_record, Soa.size_clear]
        simp [Nat.ne_of_lt positive]
    | false =>
        apply inv.record inv.size_le _ handed
        rw [blocked_record]
        simpa using inv.blocked_iff

end SinkInvariant

theorem sinkInvariant_start (positive : 0 < N)
    (columns : (c : Fin cols.length) → Vector (cols.get c).elem.Value N) :
    SinkInvariant (Sink.start columns) where
  size_le := Nat.zero_le _
  blocked_iff := by
    change false = true ↔ 0 = N
    simp [Nat.ne_of_lt positive]
  handed _ member := absurd member (List.not_mem_nil)

theorem sinkInvariant_step (positive : 0 < N) {sink behind : Sink cols N}
    {action : Call Row × Bool} (inv : SinkInvariant sink)
    (stepped : sink.step action = some behind) : SinkInvariant behind := by
  obtain ⟨call, flushes⟩ := action
  cases call with
  | push row =>
      rcases Nat.lt_or_ge sink.chunk.size N with room | full
      · obtain ⟨after, pushed, still⟩ := inv.push positive row flushes room
        cases pushed.symm.trans stepped
        exact still
      · cases (push_of_full full).symm.trans stepped
  | finish =>
      cases stepped
      exact inv.finish positive flushes

/-- A run that heeds refusals does not overrun. -/
theorem noOverrun_of_heeds (positive : 0 < N) {sink : Sink cols N} (inv : SinkInvariant sink)
    {actions : List (Call Row × Bool)} (heeds : HeedsRefusals sink actions) :
    NoOverrun sink actions := by
  induction actions generalizing sink with
  | nil => exact ⟨sink, rfl, inv.handed⟩
  | cons action actions inductionHypothesis =>
      obtain ⟨behind, stepped, still⟩ :
          ∃ behind, sink.step action = some behind ∧ SinkInvariant behind := by
        obtain ⟨call, flushes⟩ := action
        cases call with
        | push row =>
            have notBlocked := heeds [] row flushes actions sink rfl rfl
            exact inv.push positive row flushes (inv.room_of_not_blocked notBlocked)
        | finish => exact ⟨_, rfl, inv.finish positive flushes⟩
      have later : HeedsRefusals behind actions := by
        intro before row flushes after last split ran
        apply heeds (action :: before) row flushes after last (congrArg (action :: ·) split)
        rw [runSteps_cons, stepped]
        exact ran
      obtain ⟨last, ran, handed⟩ := inductionHypothesis still later
      refine ⟨last, ?_, handed⟩
      rw [runSteps_cons, stepped]
      exact ran

/-- A push while blocked leaves the chunk. -/
theorem heeds_of_noOverrun (positive : 0 < N) {sink : Sink cols N} (inv : SinkInvariant sink)
    {actions : List (Call Row × Bool)} (safe : NoOverrun sink actions) :
    HeedsRefusals sink actions := by
  intro before row flushes after middle split ran
  obtain ⟨last, whole, -⟩ := safe
  have reached := runSteps_preserves SinkInvariant
    (fun _ => sinkInvariant_step positive) inv ran
  rw [← Bool.not_eq_true]
  intro blocked
  have full := reached.blocked_iff.mp blocked
  have faults : middle.step (.push row, flushes) = none := push_of_full (Nat.le_of_eq full.symm)
  rw [split, runSteps_append, ran, Option.bind_some, runSteps_cons, faults] at whole
  contradiction

end Sink

/-- A sink stays within its chunk exactly if its caller does not push on after a
failed push, until a finish succeeds. -/
theorem noOverrun_iff (T : Described) {N : Nat} (positive : 0 < N)
    (columns : (c : Fin T.columns.length) → Vector (T.columns.get c).elem.Value N)
    (actions : List (Call T.Row × Bool)) :
    NoOverrun (Sink.start columns) actions ↔ HeedsRefusals (Sink.start columns) actions :=
  ⟨heeds_of_noOverrun positive (sinkInvariant_start positive columns),
    noOverrun_of_heeds positive (sinkInvariant_start positive columns)⟩

/-- A struct of one byte. -/
def byteStruct : Described := [⟨"a", .plain (.int ⟨false, .one⟩)⟩]

def byteRow (value : BitVec 8) : byteStruct.Row
  | ⟨0, _⟩ => value

def zeroColumns (T : Described) (N : Nat) (c : Fin T.columns.length) :
    Vector (T.columns.get c).elem.Value N :=
  Vector.replicate N (T.columns.get c).elem.default

/-- The flush of a full chunk fails, a finish drains it, and the next push has room. -/
theorem noOverrun_iff_refused :
    let actions := [(.push (byteRow 7), true), (.push (byteRow 8), false), (.finish, false),
      (.finish, true), (.push (byteRow 9), true)]
    NoOverrun (Sink.start (zeroColumns byteStruct 2)) actions ↔
      HeedsRefusals (Sink.start (zeroColumns byteStruct 2)) actions :=
  noOverrun_iff byteStruct (by decide) _ _

/-- The second push stores behind the end of a chunk of one row. -/
theorem noOverrun_fails :
    ¬ NoOverrun (Sink.start (zeroColumns byteStruct 1))
      [(.push (byteRow 7), false), (.push (byteRow 8), true)] := by
  intro safe
  obtain ⟨sink, ran, -⟩ := safe
  have faults : runSteps Sink.step (Sink.start (zeroColumns byteStruct 1))
      [(.push (byteRow 7), false), (.push (byteRow 8), true)] = none := rfl
  rw [faults] at ran
  contradiction

/-! ### Delivery -/

section Delivery

variable {Row : Type} {cols : List (Column Row)} {N : Nat}

/-- The rows pushed. -/
def pushedRows (calls : List (Call Row)) : List Row :=
  calls.filterMap fun
    | .push row => some row
    | .finish => none

/-- The values of a column in the chunks handed over, one chunk after the other. -/
def deliveredRows (history : List (Event cols N)) (c : Fin cols.length) :
    List (cols.get c).elem.Value :=
  history.flatMap fun event =>
    match event.handed with
    | none => []
    | some chunk => chunk.rows c

/-- A push hands over full chunks, a finish chunks that are neither full nor empty. -/
def ChunkSized (event : Event cols N) : Prop :=
  ∀ chunk, event.handed = some chunk →
    match event.call with
    | .push _ => chunk.size = N
    | .finish => 1 ≤ chunk.size ∧ chunk.size ≤ N - 1

/-- The rows pushed are those handed over and then those held, in order; the chunks
have their sizes, every call has returned true, the chunk is not full, and it is
empty behind a finish. -/
structure Delivers (sink : Sink cols N) : Prop where
  rows : ∀ c, deliveredRows sink.history c ++ sink.chunk.rows c =
    (pushedRows (sink.history.map Event.call)).map (cols.get c).get
  sized : ∀ event ∈ sink.history, ChunkSized event
  succeeded : ∀ event ∈ sink.history, event.returned = true
  pending_lt : sink.chunk.size < N
  drained : ∀ event, sink.history.getLast? = some event → event.call = .finish →
    sink.chunk.size = 0

namespace Delivers

variable {sink : Sink cols N} (delivers : Delivers sink)

include delivers

/-- A call after which the rows handed over and held are as they were, but for the
row pushed. -/
theorem record {call : Call Row} {chunk : Soa cols N} {handed : Option (Soa cols N)}
    (moved : ∀ c, deliveredRows [⟨call, handed, true⟩] c ++ chunk.rows c =
      sink.chunk.rows c ++ (pushedRows [call]).map (cols.get c).get)
    (sized : ChunkSized (⟨call, handed, true⟩ : Event cols N)) (room : chunk.size < N)
    (drained : call = .finish → chunk.size = 0) :
    Delivers (sink.record call chunk handed true) where
  rows c := by
    unfold Sink.record deliveredRows pushedRows
    rw [List.flatMap_append, List.map_append, List.filterMap_append, List.map_append,
      List.append_assoc]
    refine (congrArg _ (moved c)).trans ?_
    rw [← List.append_assoc]
    exact congrArg (· ++ _) (delivers.rows c)
  sized event member := by
    rcases List.mem_append.mp member with before | last
    · exact delivers.sized event before
    · rw [List.mem_singleton.mp last]
      exact sized
  succeeded event member := by
    rcases List.mem_append.mp member with before | last
    · exact delivers.succeeded event before
    · rw [List.mem_singleton.mp last]
  pending_lt := room
  drained event last finished := by
    unfold Sink.record at last
    rw [List.getLast?_concat] at last
    cases last
    exact drained finished

theorem push (row : Row) :
    ∃ behind, sink.push row true = some behind ∧ Delivers behind := by
  obtain ⟨chunk, size, rows, pushed⟩ := push_of_lt row true delivers.pending_lt
  refine ⟨_, pushed, ?_⟩
  have room := delivers.pending_lt
  split
  · next full =>
    apply delivers.record _ _ (Nat.lt_of_le_of_lt (Nat.zero_le _) room)
    · intro pushed
      contradiction
    · intro c
      rw [Soa.rows_clear, List.append_nil]
      exact (List.append_nil _).trans (rows c)
    · intro handed same
      cases same
      dsimp only
      omega
  · next more =>
    apply delivers.record _ _ (by omega)
    · intro pushed
      contradiction
    · exact rows
    · intro handed same
      contradiction

theorem finish : Delivers (sink.finish true) := by
  have room := delivers.pending_lt
  unfold Sink.finish
  split
  · next empty =>
    apply delivers.record _ _ room fun _ => empty
    · intro c
      exact (List.append_nil _).symm
    · intro handed same
      contradiction
  · next held =>
    apply delivers.record _ _ (Nat.lt_of_le_of_lt (Nat.zero_le _) room) fun _ => rfl
    · intro c
      rw [Soa.rows_clear]
      exact List.append_nil _
    · intro handed same
      cases same
      dsimp only
      omega

end Delivers

theorem delivers_start (positive : 0 < N)
    (columns : (c : Fin cols.length) → Vector (cols.get c).elem.Value N) :
    Delivers (Sink.start columns) where
  rows _ := rfl
  sized _ member := absurd member List.not_mem_nil
  succeeded _ member := absurd member List.not_mem_nil
  pending_lt := positive
  drained event last := by
    change none = some event at last
    contradiction

theorem delivers_step {sink : Sink cols N} (delivers : Delivers sink) (call : Call Row) :
    ∃ behind, sink.step (call, true) = some behind ∧ Delivers behind := by
  cases call with
  | push row => exact delivers.push row
  | finish => exact ⟨_, rfl, delivers.finish⟩

/-- A call that does not fault is recorded. -/
theorem calls_step {sink behind : Sink cols N} {action : Call Row × Bool}
    (stepped : sink.step action = some behind) :
    behind.history.map Event.call = sink.history.map Event.call ++ [action.1] := by
  have flushed (call : Call Row) (chunk : Soa cols N) (flushes : Bool) :
      (sink.flushChunk call chunk flushes).history.map Event.call =
        sink.history.map Event.call ++ [call] := by
    unfold Sink.flushChunk
    split <;> exact List.map_append
  obtain ⟨call, flushes⟩ := action
  cases call with
  | push row =>
      rcases Nat.lt_or_ge sink.chunk.size N with room | full
      · obtain ⟨chunk, -, -, pushed⟩ := push_of_lt row flushes room
        cases pushed.symm.trans stepped
        split
        · exact flushed _ _ _
        · exact List.map_append
      · cases (push_of_full full).symm.trans stepped
  | finish =>
      cases stepped
      unfold Sink.finish
      split
      · exact List.map_append
      · exact flushed _ _ _

theorem calls_run {sink last : Sink cols N} {actions : List (Call Row × Bool)}
    (ran : runSteps Sink.step sink actions = some last) :
    last.history.map Event.call = sink.history.map Event.call ++ actions.map Prod.fst := by
  induction actions generalizing sink with
  | nil =>
      cases ran
      exact (List.append_nil _).symm
  | cons action actions inductionHypothesis =>
      rw [runSteps_cons] at ran
      obtain ⟨behind, stepped, rest⟩ := Option.bind_eq_some_iff.mp ran
      rw [inductionHypothesis rest, calls_step stepped, List.append_assoc]
      rfl

end Delivery

/-- A sink whose flushes succeed takes any calls, and after them the chunks handed
over and then the rows held are the rows pushed, column by column; behind a finish
nothing is held, and the chunks alone are the rows pushed. -/
theorem sink_delivers (T : Described) {N : Nat} (positive : 0 < N)
    (columns : (c : Fin T.columns.length) → Vector (T.columns.get c).elem.Value N)
    (calls : List (Call T.Row)) :
    ∃ sink, runSteps Sink.step (Sink.start columns) (calls.map fun call => (call, true)) =
        some sink ∧
      (∀ c, deliveredRows sink.history c ++ sink.chunk.rows c =
        (pushedRows calls).map (T.columns.get c).get) ∧
      (∀ event ∈ sink.history, ChunkSized event) ∧
      (∀ event ∈ sink.history, event.returned = true) ∧ sink.chunk.size < N ∧
      (calls.getLast? = some .finish → sink.chunk.size = 0 ∧
        ∀ c, deliveredRows sink.history c = (pushedRows calls).map (T.columns.get c).get) := by
  have progress : ∀ {state : Sink T.columns N} {action},
      action ∈ calls.map (fun call => (call, true)) → Delivers state →
        ∃ behind, Sink.step state action = some behind ∧ Delivers behind := by
    intro state action member delivers
    obtain ⟨call, -, rfl⟩ := List.mem_map.mp member
    exact delivers_step delivers call
  obtain ⟨sink, ran, delivers⟩ :=
    runSteps_some Delivers progress (delivers_start positive columns)
  have history := calls_run ran
  rw [List.map_map] at history
  change sink.history.map Event.call = [] ++ calls.map id at history
  rw [List.map_id, List.nil_append] at history
  have rows : ∀ c, deliveredRows sink.history c ++ sink.chunk.rows c =
      (pushedRows calls).map (T.columns.get c).get := by
    intro c
    rw [delivers.rows c, history]
  refine ⟨sink, ran, rows, delivers.sized, delivers.succeeded, delivers.pending_lt, ?_⟩
  intro finished
  rw [← history, List.getLast?_map] at finished
  obtain ⟨event, last, finish⟩ := Option.map_eq_some_iff.mp finished
  have empty := delivers.drained event last finish
  refine ⟨empty, fun c => ?_⟩
  have held : sink.chunk.rows c = [] := by
    rw [Soa.rows, empty, List.take_zero]
  rw [← rows c, held, List.append_nil]

theorem sink_delivers_two :
    let calls : List (Call byteStruct.Row) :=
      [.push (byteRow 7), .push (byteRow 8), .push (byteRow 9), .finish]
    ∃ sink, runSteps Sink.step (Sink.start (zeroColumns byteStruct 2))
        (calls.map fun call => (call, true)) = some sink ∧
      (∀ c, deliveredRows sink.history c ++ sink.chunk.rows c =
        (pushedRows calls).map (byteStruct.columns.get c).get) ∧
      (∀ event ∈ sink.history, ChunkSized event) ∧
      (∀ event ∈ sink.history, event.returned = true) ∧ sink.chunk.size < 2 ∧
      (calls.getLast? = some .finish → sink.chunk.size = 0 ∧
        ∀ c, deliveredRows sink.history c =
          (pushedRows calls).map (byteStruct.columns.get c).get) :=
  sink_delivers byteStruct (by decide) _ _

end Nanotins.Soatins
