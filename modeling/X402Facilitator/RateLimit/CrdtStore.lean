import X402Facilitator.Library.Execution
import X402Facilitator.RateLimit.Limiter

/-!
# The multi-region bucket store

Each region counts in local buckets and a timer merges them, bucket by bucket,
with a table that all regions share.  A run of the merge is suspended at every
query, so increments, sweeps and further runs happen in the meantime.  Any
failure of the database degrades the region.
-/

namespace X402Facilitator.RateLimit

/-- The value of a reset time where it is read: a number, a `BIGINT` column,
which the driver hands over as a string of digits, or `NaN`. -/
inductive ResetAt where
  | seconds (value : ℕ)
  | digits (value : ℕ)
  | nan
  deriving DecidableEq, Repr

structure Reading where
  count : ℕ
  resetAt : ResetAt
  deriving DecidableEq, Repr

def Bucket.reading (bucket : Bucket) : Reading := ⟨bucket.count, .seconds bucket.resetAt⟩

namespace Crdt

variable {R Id : Type*}

/-- The rows of `crdt_rate_limit_buckets`. -/
abbrev Table (Id : Type*) := Id → Option Bucket

/-- A run of `_sync`.  It has `visited` these entries of the local map so far,
and awaits the query it has sent for the bucket it has read. -/
inductive SyncRun (Id : Type*) where
  | notStarted
  | skipped
  | querying (visited : List Id) (id : Id) (bucket : Bucket)
  | answered (visited : List Id) (id : Id) (bucket : Bucket) (merged : Option ℕ)
  | finished
  | failed
  deriving DecidableEq

def SyncRun.InFlight : SyncRun Id → Prop
  | querying _ _ _ | answered _ _ _ _ => True
  | _ => False

/-- The run is suspended at its query for `id`. -/
def SyncRun.Awaits (id : Id) : SyncRun Id → Prop
  | querying _ awaited _ | answered _ awaited _ _ => awaited = id
  | _ => False

/-- The queries of `get` and of `sweep`. -/
inductive Query (Id : Type*) where
  | select (id : Id)
  | delete (now : ℕ)
  deriving DecidableEq

inductive Startup where
  | localOnly
  | connecting
  | initialising
  | syncing
  deriving DecidableEq

/-- One region's instance; `counters` are its local buckets. -/
structure Region (Id : Type*) where
  startup : Startup
  degraded : Bool
  counters : InsertionMap Id Bucket
  syncs : ℕ → SyncRun Id
  queries : List (Query Id)

/-- The region has a pool and has not been degraded. -/
def Region.Online (region : Region Id) : Prop :=
  (region.startup = .initialising ∨ region.startup = .syncing) ∧ region.degraded = false

instance (region : Region Id) : Decidable region.Online :=
  inferInstanceAs (Decidable (_ ∧ _))

def Region.init (startup : Startup) : Region Id where
  startup := startup
  degraded := false
  counters := .empty
  syncs := fun _ => .notStarted
  queries := []

/-- `increments` is the history of all increments. -/
structure System (R Id : Type*) where
  regions : R → Region Id
  table : Table Id
  increments : List (R × Id × ℕ)

def System.init (startup : R → Startup) : System R Id where
  regions := fun region => .init (startup region)
  table := fun _ => none
  increments := []

inductive Action (R Id : Type*) where
  | connected (region : R)
  | unavailable (region : R)
  | initialised (region : R) (ok : Bool)
  | poolError (region : R)
  | increment (region : R) (id : Id) (amount resetAt now : ℕ)
  | get (region : R) (id : Id) (now : ℕ)
  | sweep (region : R) (now : ℕ)
  | answer (region : R) (index : ℕ)
  | reject (region : R) (index : ℕ)
  | sync (region : R) (run now : ℕ)
  | execute (region : R) (run : ℕ)
  | resume (region : R) (run now : ℕ)
  | fail (region : R) (run : ℕ)

section

variable [DecidableEq Id]

/-- The bucket that an increment leaves: a live one goes on, with the new reset
time. -/
def counted (counters : InsertionMap Id Bucket) (id : Id) (amount resetAt now : ℕ) : Bucket :=
  match (counters.get id).filter fun bucket => now < bucket.resetAt with
  | none => ⟨amount, resetAt⟩
  | some existing => ⟨existing.count + amount, resetAt⟩

/-- `increment` on the local map. -/
def increment (maxSize : ℕ) (counters : InsertionMap Id Bucket) (id : Id)
    (amount resetAt now : ℕ) : InsertionMap Id Bucket :=
  (counters.set id (counted counters id amount resetAt now)).shed Bucket.resetAt maxSize

/-- The first part of `sweep`. -/
def sweepLocal (counters : InsertionMap Id Bucket) (now : ℕ) : InsertionMap Id Bucket :=
  counters.filter fun bucket => now < bucket.resetAt

/-- The second part of `sweep`. -/
def sweepTable (table : Table Id) (now : ℕ) : Table Id :=
  fun id => (table id).filter fun row => now < row.resetAt

/-- The merging upsert of `_sync`, and the count it returns, if any. -/
def upsert (table : Table Id) (id : Id) (bucket : Bucket) : Option ℕ × Table Id :=
  match table id with
  | none => (some bucket.count, Function.update table id (some bucket))
  | some row =>
      if row.resetAt ≤ bucket.resetAt then
        let count := if row.resetAt < bucket.resetAt then bucket.count
          else max row.count bucket.count
        (some count, Function.update table id (some ⟨count, bucket.resetAt⟩))
      else (none, table)

/-- `remoteResetAt === local.resetAt`. -/
def strictlyEqual : ResetAt → ℕ → Bool
  | .seconds value, resetAt => value = resetAt
  | _, _ => false

/-- What `get` answers: `found` is the local bucket, and `row` the row that the
query has returned, unless no query was made. -/
def merged (found : Option Bucket) (now : ℕ) (row : Option Bucket) : Option Reading :=
  match found.filter fun bucket => now < bucket.resetAt with
  | none =>
      match row with
      | some row =>
          if now ≤ row.resetAt then some ⟨row.count, .digits row.resetAt⟩
          else found.map Bucket.reading
      | none => found.map Bucket.reading
  | some live =>
      match row with
      | some row =>
          if strictlyEqual (.digits row.resetAt) live.resetAt then
            some ⟨max live.count row.count, .seconds live.resetAt⟩
          else some live.reading
      | none => some live.reading

def Region.get (region : Region Id) (table : Table Id) (id : Id) (now : ℕ) : Option Reading :=
  merged (region.counters.get id) now (if region.Online then table id else none)

/-- The iterator keeps its place among the entries that are still there. -/
def SyncRun.forget (counters : InsertionMap Id Bucket) : SyncRun Id → SyncRun Id
  | querying visited id bucket =>
      querying (visited.filter fun key => (counters.get key).isSome) id bucket
  | answered visited id bucket merged =>
      answered (visited.filter fun key => (counters.get key).isSome) id bucket merged
  | run => run

/-- The entries that the iterator has not yielded yet. -/
def unvisited (counters : InsertionMap Id Bucket) (visited : List Id) : List (Id × Bucket) :=
  counters.entries.filter fun entry => entry.1 ∉ visited

/-- `_sync` runs on, past expired buckets, to its next query or to its end. -/
def advance (counters : InsertionMap Id Bucket) (visited : List Id) (now : ℕ) : SyncRun Id :=
  let expired := fun entry : Id × Bucket => decide (entry.2.resetAt ≤ now)
  match (unvisited counters visited).dropWhile expired with
  | [] => .finished
  | entry :: _ =>
      .querying (visited ++ ((unvisited counters visited).takeWhile expired).map Prod.fst ++
        [entry.1]) entry.1 entry.2

/-- The local buckets change, and the runs in flight keep their places. -/
def Region.setCounters (region : Region Id) (counters : InsertionMap Id Bucket) : Region Id :=
  { region with counters := counters, syncs := fun run => (region.syncs run).forget counters }

section

omit [DecidableEq Id]

def Region.degrade (region : Region Id) : Region Id := { region with degraded := true }

def Region.setSync (region : Region Id) (run : ℕ) (state : SyncRun Id) : Region Id :=
  { region with syncs := Function.update region.syncs run state }

/-- A run that has come to its end recovers the region. -/
def Region.proceed (region : Region Id) (run : ℕ) (state : SyncRun Id) : Region Id :=
  match state with
  | .finished => { region.setSync run .finished with degraded := false }
  | _ => region.setSync run state

end

/-- The local bucket takes the merged count, if a row was returned. -/
def absorb (counters : InsertionMap Id Bucket) (id : Id) (bucket : Bucket) :
    Option ℕ → InsertionMap Id Bucket
  | some count => counters.set id ⟨count, bucket.resetAt⟩
  | none => counters

variable [DecidableEq R]

omit [DecidableEq Id] in
def System.setRegion (s : System R Id) (index : R) (region : Region Id) : System R Id :=
  { s with regions := Function.update s.regions index region }

/-- One step, in regions whose local maps hold at most `maxSize` buckets. -/
def step (maxSize : ℕ) (s : System R Id) : Action R Id → Option (System R Id)
  | .connected index =>
      let region := s.regions index
      if region.startup = .connecting then
        some (s.setRegion index { region with startup := .initialising })
      else none
  | .unavailable index =>
      let region := s.regions index
      if region.startup = .connecting then
        some (s.setRegion index { region.degrade with startup := .localOnly })
      else none
  | .initialised index ok =>
      let region := s.regions index
      if region.startup = .initialising then
        let region := if ok then region else region.degrade
        some (s.setRegion index { region with startup := .syncing })
      else none
  | .poolError index =>
      let region := s.regions index
      if region.startup = .initialising ∨ region.startup = .syncing then
        some (s.setRegion index region.degrade)
      else none
  | .increment index id amount resetAt now =>
      let region := s.regions index
      let region := region.setCounters (increment maxSize region.counters id amount resetAt now)
      some { s.setRegion index region with increments := s.increments ++ [(index, id, amount)] }
  | .get index id _ =>
      let region := s.regions index
      if region.Online then
        some (s.setRegion index { region with queries := region.queries ++ [.select id] })
      else some s
  | .sweep index now =>
      let region := s.regions index
      let region := region.setCounters (sweepLocal region.counters now)
      if region.Online then
        some (s.setRegion index { region with queries := region.queries ++ [.delete now] })
      else some (s.setRegion index region)
  | .answer index query =>
      let region := s.regions index
      let answered := { region with queries := region.queries.eraseIdx query }
      match region.queries[query]? with
      | some (.select _) => some (s.setRegion index answered)
      | some (.delete now) =>
          some { s.setRegion index answered with table := sweepTable s.table now }
      | none => none
  | .reject index query =>
      let region := s.regions index
      if query < region.queries.length then
        let rejected := { region with queries := region.queries.eraseIdx query }
        some (s.setRegion index rejected.degrade)
      else none
  | .sync index run now =>
      let region := s.regions index
      if region.startup = .syncing ∧ region.syncs run = .notStarted then
        if region.degraded then some (s.setRegion index (region.setSync run .skipped))
        else some (s.setRegion index (region.proceed run (advance region.counters [] now)))
      else none
  | .execute index run =>
      let region := s.regions index
      match region.syncs run with
      | .querying visited id bucket =>
          let result := upsert s.table id bucket
          let region := region.setSync run (.answered visited id bucket result.1)
          some { s.setRegion index region with table := result.2 }
      | _ => none
  | .resume index run now =>
      let region := s.regions index
      match region.syncs run with
      | .answered visited id bucket merged =>
          let counters := absorb region.counters id bucket merged
          let region := { region with counters := counters }
          some (s.setRegion index (region.proceed run (advance counters visited now)))
      | _ => none
  | .fail index run =>
      let region := s.regions index
      match region.syncs run with
      | .querying _ _ _ | .answered _ _ _ _ =>
          some (s.setRegion index (region.setSync run .failed).degrade)
      | _ => none

end

end Crdt

end X402Facilitator.RateLimit
