import X402Facilitator.Library.Execution
import X402Facilitator.Library.InsertionMap
import X402Facilitator.Library.Json

/-!
# The idempotency stores

One claim for each key.  A claim is pending from `begin` until it is completed
with a response or released by `fail`.

Over Postgres any number of store instances share the table `idempotency_keys`.  A
`begin` call is a sequence of statements, and the statements of different callers
interleave.  The claiming `INSERT` is taken together with its `COMMIT`: until
the commit no other transaction sees the row, and an `INSERT` of the same key
waits for it.  Every query succeeds; the only way an instance degrades here is
a stored string that `JSON.parse` rejects.  The `jsonb` column is taken to hold
the value that was serialized into it, and `lockTimeoutMs` is positive.
-/

namespace X402Facilitator

/-- An entry of the `records` map: a claim in flight, or a recorded response. -/
inductive ClaimRecord where
  | pending
  | completed (statusCode : ℕ) (response : Json)

/-- The outcome of `begin`. -/
inductive BeginOutcome where
  | owner
  | replayed (statusCode : ℕ) (response : Json)
  | conflict

def ClaimRecord.isPending : ClaimRecord → Bool
  | pending => true
  | completed _ _ => false

def BeginOutcome.isOwner : BeginOutcome → Bool
  | owner => true
  | _ => false

/-- The outcome for a key in a given condition.  A completed entry whose
response is falsy is claimed again. -/
def beginOutcome : Option ClaimRecord → BeginOutcome
  | none => .owner
  | some .pending => .conflict
  | some (.completed statusCode response) =>
      if response.truthy then .replayed statusCode response else .owner

/-- Only a completed claim is replayed. -/
theorem completed_of_replayed {claim : Option ClaimRecord} {statusCode : ℕ}
    {response : Json} (houtcome : beginOutcome claim = .replayed statusCode response) :
    claim = some (.completed statusCode response) := by
  rw [beginOutcome.eq_def] at houtcome
  split at houtcome
  · cases houtcome
  · cases houtcome
  · split at houtcome
    · cases houtcome
      rfl
    · cases houtcome

structure MemoryIdempotencyStore where
  records : InsertionMap String ClaimRecord

namespace MemoryIdempotencyStore

def empty : MemoryIdempotencyStore := ⟨.empty⟩

/-- Claim `key`. -/
def begin (store : MemoryIdempotencyStore) (key : String) :
    BeginOutcome × MemoryIdempotencyStore :=
  match beginOutcome (store.records.get key) with
  | .owner => (.owner, ⟨store.records.set key .pending⟩)
  | outcome => (outcome, store)

def complete (store : MemoryIdempotencyStore) (key : String) (statusCode : ℕ)
    (response : Json) : MemoryIdempotencyStore :=
  ⟨store.records.set key (.completed statusCode response)⟩

def fail (store : MemoryIdempotencyStore) (key : String) : MemoryIdempotencyStore :=
  match store.records.get key with
  | some .pending => ⟨store.records.erase key⟩
  | _ => store

@[simp]
theorem get_empty (key : String) : empty.records.get key = none := rfl

theorem begin_fst (store : MemoryIdempotencyStore) (key : String) :
    (store.begin key).1 = beginOutcome (store.records.get key) := by
  rw [begin]
  split <;> simp_all

/-- Only an owning `begin` changes the store, and only at its key. -/
theorem get_begin (store : MemoryIdempotencyStore) (key other : String) :
    (store.begin key).2.records.get other =
      if other = key ∧ (store.begin key).1.isOwner then some .pending
      else store.records.get other := by
  rw [begin_fst]
  rw [begin]
  cases houtcome : beginOutcome (store.records.get key) with
  | owner => simp [InsertionMap.get_set, BeginOutcome.isOwner]
  | replayed statusCode response => simp [BeginOutcome.isOwner]
  | conflict => simp [BeginOutcome.isOwner]

theorem get_complete (store : MemoryIdempotencyStore) (key other : String)
    (statusCode : ℕ) (response : Json) :
    (store.complete key statusCode response).records.get other =
      if other = key then some (.completed statusCode response)
      else store.records.get other :=
  InsertionMap.get_set _ _ _ _

theorem get_fail (store : MemoryIdempotencyStore) (key other : String) :
    (store.fail key).records.get other =
      if other = key then (store.records.get other).filter fun record => !record.isPending
      else store.records.get other := by
  rw [fail]
  by_cases hkey : other = key
  · subst hkey
    rw [if_pos rfl]
    rcases h : store.records.get other with _ | ⟨_ | ⟨statusCode, response⟩⟩
    · simp only [h]
      rfl
    · rw [InsertionMap.get_erase_self]
      rfl
    · simp only [h]
      rfl
  · rw [if_neg hkey]
    split
    · exact InsertionMap.get_erase_of_ne _ hkey
    · rfl

end MemoryIdempotencyStore

end X402Facilitator

namespace X402Facilitator.PostgresIdempotency

open X402Facilitator.Execution

/-- A row of `idempotency_keys`; the response column is NULL while the claim is
in flight. -/
structure Row where
  statusCode : ℕ
  response : Option Json

/-- The row that `INSERT INTO idempotency_keys (key)` creates. -/
def Row.claimed : Row := ⟨200, none⟩

/-- How far a `begin` call has got. -/
inductive BeginCall where
  | notMade
  | started (store : ℕ) (key : String)
  | selected (store : ℕ) (key : String)
  | polling (store : ℕ) (key : String) (polled : Bool)
  | returned (key : String) (outcome : BeginOutcome)

/-- The shared table, the process-local part of every store instance and the
`begin` calls made so far. -/
structure System where
  rows : InsertionMap String Row
  degraded : ℕ → Bool
  fallback : ℕ → MemoryIdempotencyStore
  calls : ℕ → BeginCall

def System.init : System where
  rows := .empty
  degraded := fun _ => false
  fallback := fun _ => .empty
  calls := fun _ => .notMade

inductive Action where
  | beginCall (call store : ℕ) (key : String)
  | select (call : ℕ)
  | insert (call : ℕ)
  | poll (call : ℕ)
  | deadline (call : ℕ)
  | complete (store : ℕ) (key : String) (statusCode : ℕ) (response : Json)
  | fail (store : ℕ) (key : String)

namespace System

def setCall (s : System) (call : ℕ) (state : BeginCall) : System :=
  { s with calls := Function.update s.calls call state }

/-- `super.begin` of one instance. -/
def memoryBegin (s : System) (call store : ℕ) (key : String) : System :=
  let (outcome, memory) := (s.fallback store).begin key
  { s with
    fallback := Function.update s.fallback store memory
    calls := Function.update s.calls call (.returned key outcome) }

def degrade (s : System) (store : ℕ) : System :=
  { s with degraded := Function.update s.degraded store true }

def setFallback (s : System) (store : ℕ) (memory : MemoryIdempotencyStore) : System :=
  { s with fallback := Function.update s.fallback store memory }

end System

/-- The response column as `begin` returns it: the driver parses jsonb, and a
string is parsed once more. -/
def readResponse (jsonParse : String → Option Json) : Option Json → Option Json
  | none => some .null
  | some (.str text) => jsonParse text
  | some value => some value

/-- `begin` reports the row it found as a replay. -/
def replayRow (jsonParse : String → Option Json) (s : System) (call store : ℕ)
    (key : String) (row : Row) : System :=
  match readResponse jsonParse row.response with
  | some response => s.setCall call (.returned key (.replayed row.statusCode response))
  | none => (s.degrade store).memoryBegin call store key

def step (jsonParse : String → Option Json) (s : System) : Action → Option System
  | .beginCall call store key =>
      match s.calls call with
      | .notMade =>
          if s.degraded store then some (s.memoryBegin call store key)
          else some (s.setCall call (.started store key))
      | _ => none
  | .select call =>
      match s.calls call with
      | .started store key =>
          match s.rows.get key with
          | some row => some (replayRow jsonParse s call store key row)
          | none => some (s.setCall call (.selected store key))
      | _ => none
  | .insert call =>
      match s.calls call with
      | .selected store key =>
          match s.rows.get key with
          | none =>
              some { s with
                rows := s.rows.set key .claimed
                calls := Function.update s.calls call (.returned key .owner) }
          | some _ => some (s.setCall call (.polling store key false))
      | _ => none
  | .poll call =>
      match s.calls call with
      | .polling store key _ =>
          match (s.rows.get key).filter fun row => row.response.isSome with
          | some row => some (replayRow jsonParse s call store key row)
          | none => some (s.setCall call (.polling store key true))
      | _ => none
  | .deadline call =>
      -- the loop body runs at least once before the deadline is checked again
      match s.calls call with
      | .polling _ key true => some (s.setCall call (.returned key .conflict))
      | _ => none
  | .complete store key statusCode response =>
      if s.degraded store then
        some (s.setFallback store ((s.fallback store).complete key statusCode response))
      else
        match s.rows.get key with
        | some _ => some { s with rows := s.rows.set key ⟨statusCode, some response⟩ }
        | none => some s
  | .fail store key =>
      if s.degraded store then
        some (s.setFallback store ((s.fallback store).fail key))
      else
        match s.rows.get key with
        | some ⟨_, none⟩ => some { s with rows := s.rows.erase key }
        | _ => some s

end X402Facilitator.PostgresIdempotency
