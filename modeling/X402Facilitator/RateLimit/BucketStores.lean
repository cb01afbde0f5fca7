import X402Facilitator.RateLimit.CrdtStore

/-!
# One interface, three stores

The in-memory store, the Postgres store and one region of the multi-region store
take the same calls.  The Postgres store reads the reset time of a returned row
under a name that its columns do not have, so none of its answers has one.
-/

namespace X402Facilitator.RateLimit

variable {Id : Type*}

/-- A column of a row as the driver hands it over. -/
inductive Column where
  | digits (value : ℕ)
  | undefined
  deriving DecidableEq

/-- A row of `rate_limit_buckets`, by the names of its columns. -/
def Bucket.column (row : Bucket) : String → Column
  | "count" => .digits row.count
  | "reset_at" => .digits row.resetAt
  | _ => .undefined

def Column.number : Column → ResetAt
  | digits value => .seconds value
  | undefined => .nan

/-- The table `rate_limit_buckets`. -/
structure PostgresStore (Id : Type*) where
  rows : Id → Option Bucket

namespace PostgresStore

def empty : PostgresStore Id := ⟨fun _ => none⟩

def reading (row : Bucket) : Reading := ⟨row.count, (row.column "resetAt").number⟩

def get (store : PostgresStore Id) (id : Id) (now : ℕ) : Option Reading :=
  ((store.rows id).filter fun row => now < row.resetAt).map reading

def upserted (store : PostgresStore Id) (id : Id) (amount resetAt now : ℕ) : Bucket :=
  match store.rows id with
  | none => ⟨amount, resetAt⟩
  | some row => ⟨if now < row.resetAt then row.count + amount else amount, resetAt⟩

variable [DecidableEq Id]

def increment (store : PostgresStore Id) (id : Id) (amount resetAt now : ℕ) :
    PostgresStore Id :=
  ⟨Function.update store.rows id (some (store.upserted id amount resetAt now))⟩

omit [DecidableEq Id] in
def sweep (store : PostgresStore Id) (now : ℕ) : PostgresStore Id :=
  ⟨fun id => (store.rows id).filter fun row => now < row.resetAt⟩

end PostgresStore

/-- The multi-region store in a single region, with or without a database. -/
structure SingleRegion (Id : Type*) where
  pooled : Bool
  counters : InsertionMap Id Bucket
  table : Crdt.Table Id

namespace SingleRegion

def empty (pooled : Bool) : SingleRegion Id := ⟨pooled, .empty, fun _ => none⟩

variable [DecidableEq Id]

def get (store : SingleRegion Id) (id : Id) (now : ℕ) : Option Reading :=
  Crdt.merged (store.counters.get id) now (if store.pooled then store.table id else none)

def increment (store : SingleRegion Id) (maxSize : ℕ) (id : Id) (amount resetAt now : ℕ) :
    SingleRegion Id :=
  { store with counters := Crdt.increment maxSize store.counters id amount resetAt now }

def sweep (store : SingleRegion Id) (now : ℕ) : SingleRegion Id :=
  { store with
    counters := Crdt.sweepLocal store.counters now
    table := if store.pooled then Crdt.sweepTable store.table now else store.table }

/-- One bucket of a run of `_sync`. -/
def mergeEntry (now : ℕ) (store : SingleRegion Id) (entry : Id × Bucket) : SingleRegion Id :=
  if entry.2.resetAt ≤ now then store
  else
    let result := Crdt.upsert store.table entry.1 entry.2
    { store with
      counters := Crdt.absorb store.counters entry.1 entry.2 result.1
      table := result.2 }

/-- A run of `_sync` that nothing interrupts. -/
def sync (store : SingleRegion Id) (now : ℕ) : SingleRegion Id :=
  if store.pooled then store.counters.entries.foldl (mergeEntry now) store else store

end SingleRegion

/-- A call of the interface, or a tick of the timer that merges. -/
inductive StoreCall (Id : Type*) where
  | increment (id : Id) (amount resetAt now : ℕ)
  | get (id : Id) (now : ℕ)
  | sweep (now : ℕ)
  | sync (now : ℕ)

def StoreCall.now : StoreCall Id → ℕ
  | increment _ _ _ now | get _ now | sweep now | sync now => now

def StoreCall.created : StoreCall Id → List Id
  | increment id _ _ _ => [id]
  | _ => []

def StoreCall.IsIncrement : StoreCall Id → Prop
  | increment _ _ _ _ => True
  | _ => False

section Stores

variable [DecidableEq Id] {maxSize : ℕ}

structure Stores (Id : Type*) (maxSize : ℕ) where
  memory : MemoryStore Id maxSize
  postgres : PostgresStore Id
  crdt : SingleRegion Id

/-- What the three stores answer; `sweep` and the timer answer nothing. -/
structure Answers where
  memory : Option Reading
  postgres : Option Reading
  crdt : Option Reading

namespace Stores

omit [DecidableEq Id] in
def empty (pooled : Bool) : Stores Id maxSize := ⟨.empty, .empty, .empty pooled⟩

def answers (stores : Stores Id maxSize) : StoreCall Id → Answers
  | .increment id amount resetAt now =>
      { memory := some (stores.memory.counted id amount resetAt now).reading
        postgres := some (PostgresStore.reading (stores.postgres.upserted id amount resetAt now))
        crdt := some (Crdt.counted stores.crdt.counters id amount resetAt now).reading }
  | .get id now =>
      { memory := (stores.memory.get id now).map Bucket.reading
        postgres := stores.postgres.get id now
        crdt := stores.crdt.get id now }
  | _ => ⟨none, none, none⟩

def after (stores : Stores Id maxSize) : StoreCall Id → Stores Id maxSize
  | .increment id amount resetAt now =>
      { memory := stores.memory.increment id amount resetAt now
        postgres := stores.postgres.increment id amount resetAt now
        crdt := stores.crdt.increment maxSize id amount resetAt now }
  | .get _ _ => stores
  | .sweep now =>
      { memory := stores.memory.sweep now
        postgres := stores.postgres.sweep now
        crdt := stores.crdt.sweep now }
  | .sync now => { stores with crdt := stores.crdt.sync now }

def run (stores : Stores Id maxSize) (calls : List (StoreCall Id)) : Stores Id maxSize :=
  calls.foldl after stores

end Stores

def Reading.Finite (reading : Reading) : Prop := ∃ value, reading.resetAt = .seconds value

/-- The answers to a call agree, are finite, and are missing where no live bucket
exists. -/
structure AgreesAt (stores : Stores Id maxSize) (call : StoreCall Id) : Prop where
  postgres : (stores.answers call).postgres = (stores.answers call).memory
  crdt : (stores.answers call).crdt = (stores.answers call).memory
  finite : ∀ reading, (stores.answers call).postgres = some reading ∨
    (stores.answers call).crdt = some reading ∨ (stores.answers call).memory = some reading →
      reading.Finite
  missing : ∀ id now, call = .get id now → ((stores.answers call).memory = none ↔
    ¬ ∃ bucket, stores.memory.map.get id = some bucket ∧ now < bucket.resetAt)

/-- The calls from the stores' creation on, all answered as one interface: a `get`
repeats the last increment of its bucket for as long as the window lasts. -/
structure Uniform (maxSize : ℕ) (pooled : Bool) (calls : List (StoreCall Id)) : Prop where
  agrees : ∀ earlier call, earlier ++ [call] <+: calls →
    AgreesAt (Stores.run (.empty pooled : Stores Id maxSize) earlier) call
  repeats : ∀ earlier id amount resetAt now between later,
    earlier ++ [.increment id amount resetAt now] ++ between ++ [.get id later] <+: calls →
    (∀ call ∈ between, id ∉ call.created) → later < resetAt →
      (Stores.run (.empty pooled : Stores Id maxSize)
          (earlier ++ [.increment id amount resetAt now] ++ between)).answers (.get id later) =
        (Stores.run (.empty pooled : Stores Id maxSize) earlier).answers
          (.increment id amount resetAt now)

/-- Positive amounts, a clock that does not go back, and no more buckets than the
in-memory store has room for. -/
structure Orderly (maxSize : ℕ) (calls : List (StoreCall Id)) : Prop where
  positive : ∀ id amount resetAt now, StoreCall.increment id amount resetAt now ∈ calls →
    0 < amount
  clock : (calls.map StoreCall.now).Pairwise (· ≤ ·)
  room : (calls.flatMap StoreCall.created).dedup.length < maxSize

structure Stores.Untouched (stores : Stores Id maxSize) : Prop where
  memory : stores.memory.map.entries = []
  postgres : ∀ id, stores.postgres.rows id = none
  counters : stores.crdt.counters.entries = []
  table : ∀ id, stores.crdt.table id = none

omit [DecidableEq Id] in
theorem untouched_empty (pooled : Bool) : (Stores.empty pooled : Stores Id maxSize).Untouched :=
  ⟨rfl, fun _ => rfl, rfl, fun _ => rfl⟩

variable {call : StoreCall Id} {stores : Stores Id maxSize}

theorem Stores.Untouched.after (huntouched : stores.Untouched) (hcall : ¬ call.IsIncrement) :
    (stores.after call).Untouched := by
  cases call with
  | increment id amount resetAt now => exact absurd trivial hcall
  | get id now => exact huntouched
  | sweep now =>
      refine ⟨?_, fun id => ?_, ?_, fun id => ?_⟩
      · simp [Stores.after, MemoryStore.sweep, InsertionMap.filter, huntouched.memory]
      · simp [Stores.after, PostgresStore.sweep, huntouched.postgres id]
      · simp [Stores.after, SingleRegion.sweep, Crdt.sweepLocal, InsertionMap.filter,
          huntouched.counters]
      · have hrow := huntouched.table id
        simp only [Stores.after, SingleRegion.sweep]
        split
        · rw [Crdt.sweepTable, hrow]
          rfl
        · exact hrow
  | sync now =>
      have hsync : stores.crdt.sync now = stores.crdt := by
        rw [SingleRegion.sync, huntouched.counters]
        split <;> rfl
      refine ⟨huntouched.memory, huntouched.postgres, ?_, ?_⟩
      · rw [Stores.after, hsync]
        exact huntouched.counters
      · rw [Stores.after, hsync]
        exact huntouched.table

theorem untouched_run (huntouched : stores.Untouched) {calls : List (StoreCall Id)}
    (hcalls : ∀ call ∈ calls, ¬ call.IsIncrement) : (stores.run calls).Untouched := by
  induction calls generalizing stores with
  | nil => exact huntouched
  | cons call calls ih =>
      exact ih (huntouched.after (hcalls call List.mem_cons_self))
        fun other hother => hcalls other (List.mem_cons_of_mem call hother)

theorem Stores.Untouched.answers_eq (huntouched : stores.Untouched) (hcall : ¬ call.IsIncrement) :
    stores.answers call = ⟨none, none, none⟩ := by
  cases call with
  | increment id amount resetAt now => exact absurd trivial hcall
  | get id now =>
      have hmemory : stores.memory.get id now = none := by
        rw [MemoryStore.get, InsertionMap.get, huntouched.memory]
        rfl
      have hpostgres : stores.postgres.get id now = none := by
        rw [PostgresStore.get, huntouched.postgres id]
        rfl
      have hcrdt : stores.crdt.get id now = none := by
        rw [SingleRegion.get, InsertionMap.get, huntouched.counters, huntouched.table id, ite_self]
        rfl
      rw [Stores.answers, hmemory, hpostgres, hcrdt]
      rfl
  | sweep now => rfl
  | sync now => rfl

theorem Stores.Untouched.agreesAt (huntouched : stores.Untouched) (hcall : ¬ call.IsIncrement) :
    AgreesAt stores call := by
  have hanswers := huntouched.answers_eq hcall
  refine ⟨by rw [hanswers], by rw [hanswers], fun reading hreading => ?_, fun id now _ => ?_⟩
  · rw [hanswers] at hreading
    simp at hreading
  · rw [hanswers]
    simp [InsertionMap.get, InsertionMap.lookup, huntouched.memory]

/-- An increment's answer from Postgres has no reset time. -/
theorem not_agreesAt_increment (stores : Stores Id maxSize) (id : Id) (amount resetAt now : ℕ) :
    ¬ AgreesAt stores (.increment id amount resetAt now) := by
  intro hagrees
  obtain ⟨value, hvalue⟩ := hagrees.finite _ (Or.inl rfl)
  cases hvalue

/-- The three stores answer as one interface exactly where nothing is counted. -/
theorem uniform_iff_no_increment (maxSize : ℕ) (pooled : Bool) (calls : List (StoreCall Id)) :
    Uniform maxSize pooled calls ↔ ∀ call ∈ calls, ¬ call.IsIncrement := by
  constructor
  · intro huniform call hcall hincrement
    obtain ⟨earlier, later, rfl⟩ := List.append_of_mem hcall
    cases call with
    | increment id amount resetAt now =>
        have hagrees := huniform.agrees earlier (.increment id amount resetAt now)
          ⟨later, by simp⟩
        exact not_agreesAt_increment _ id amount resetAt now hagrees
    | get id now | sweep now | sync now => exact hincrement
  · intro hnone
    constructor
    · intro earlier call hinitial
      have hsub := hinitial.subset
      apply (untouched_run (untouched_empty pooled) fun other hother =>
        hnone other (hsub (List.mem_append_left _ hother))).agreesAt
      exact hnone call (hsub (List.mem_append_right _ List.mem_cons_self))
    · intro earlier id amount resetAt now between later hinitial
      have hmem : StoreCall.increment id amount resetAt now ∈ calls :=
        hinitial.subset (by simp)
      exact absurd trivial (hnone _ hmem)

def countedOnce : List (StoreCall String) := [.increment "b" 1 60 0]

theorem postgres_has_no_reset_time :
    ¬ ∀ calls : List (StoreCall String), Orderly 10000 calls → Uniform 10000 true calls := by
  intro huniform
  have horderly : Orderly 10000 countedOnce := by
    refine ⟨fun id amount resetAt now hmem => ?_, by decide, by decide⟩
    simp only [countedOnce, List.mem_singleton, StoreCall.increment.injEq] at hmem
    omega
  exact not_agreesAt_increment _ "b" 1 60 0
    ((huniform countedOnce horderly).agrees [] _ (List.prefix_refl _))

end Stores

end X402Facilitator.RateLimit
