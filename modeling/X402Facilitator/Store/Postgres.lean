import X402Facilitator.Store.Memory

/-!
# The Postgres settlement store

`settlement_events` is the append-only log and `settlement_projections` a read
model that the appending statement maintains with its own merge rules.  The
database clock counts microseconds; a row or an event reaches the process with
its timestamps cut to milliseconds.  A statement is atomic: it either takes
effect and answers, or fails and leaves the tables as they were.
-/

namespace X402Facilitator

/-- A row of `settlement_events`. -/
structure EventRow where
  idempotencyKey : String
  event : SettlementEvent ℕ

/-- A row of `settlement_projections`. -/
structure ProjectionRow where
  columns : Settlement ℕ
  version : ℕ

structure Database where
  events : List EventRow
  projections : InsertionMap String ProjectionRow
  outbox : List (String × SettlementNotification)

def toMillis (micros : ℕ) : ℕ := micros / 1000

def toMicros (millis : ℕ) : ℕ := millis * 1000

def mapProjectionRow (row : ProjectionRow) : ProjectionRow :=
  { row with columns := row.columns.mapTime toMillis }

def mapEventRow (event : SettlementEvent ℕ) : SettlementEvent ℕ :=
  event.mapTime toMillis

/-- The response parameter of a statement: a falsy response is passed as NULL. -/
def responseParameter (response : Json) : Json :=
  if response.truthy then response else .null

namespace Database

def empty : Database := ⟨[], .empty, []⟩

/-- The events of one key in the order they were inserted. -/
def log (db : Database) (key : String) : List (SettlementEvent ℕ) :=
  (db.events.filter fun row => row.idempotencyKey = key).map EventRow.event

/-- `COALESCE(MAX(seq), 0)`. -/
def maxSeq (db : Database) (key : String) : ℕ :=
  (db.log key).foldl (fun seq event => max seq event.seq) 0

/-- An `INSERT` under `UNIQUE (idempotency_key, seq)`. -/
def insertEvent (db : Database) (key : String) (event : SettlementEvent ℕ) :
    Option Database :=
  if (db.log key).any fun other => other.seq == event.seq then none
  else some { db with events := db.events ++ [⟨key, event⟩] }

def setProjection (db : Database) (key : String) (row : ProjectionRow) : Database :=
  { db with projections := db.projections.set key row }

/-- `ON CONFLICT (idempotency_key) DO UPDATE` keeps the creation time of the
row that is there. -/
def initiatedRow (db : Database) (record : SettlementInput) (seq now : ℕ) :
    ProjectionRow where
  columns := .initiate record.payload
    (((db.projections.get record.idempotencyKey).map fun row =>
      row.columns.createdAt).getD now) now
  version := seq

/-- The `save` statement at a given sequence number. -/
def saveAt (db : Database) (seq now : ℕ) (record : SettlementInput) :
    Option (Database × ProjectionRow) :=
  (db.insertEvent record.idempotencyKey ⟨.initiated, 1, record.payload, seq, now⟩).map
    fun db =>
      let row := db.initiatedRow record seq now
      (db.setProjection record.idempotencyKey row, row)

/-- The `SET` clause of an update: each column keeps its value where the
parameter is NULL. -/
def coalescedRow (old : ProjectionRow) (state : TargetState) (details : StateDetails)
    (seq now : ℕ) : ProjectionRow where
  columns := { old.columns with
    state := state.toState
    txHash := details.txHash.or old.columns.txHash
    errorReason := details.errorReason.or old.columns.errorReason
    errorMessage := details.errorMessage.or old.columns.errorMessage
    response := (responseParameter details.response).orElse old.columns.response
    updatedAt := now }
  version := seq

/-- The update statement at a given sequence number.  Without a projection row
it inserts nothing and returns no row. -/
def updateAt (db : Database) (seq now : ℕ) (key : String) (state : TargetState)
    (details : StateDetails) : Option (Database × Option ProjectionRow) :=
  match db.projections.get key with
  | none => some (db, none)
  | some old =>
      (db.insertEvent key ⟨eventTypeForState state, 1, details.payload key, seq, now⟩).map
        fun db =>
          let row := coalescedRow old state details seq now
          (db.setProjection key row, some row)

/-- `save` as one statement: the next sequence number is read and used. -/
def saveStatement (db : Database) (now : ℕ) (record : SettlementInput) :
    Option (Database × ProjectionRow) :=
  db.saveAt (db.maxSeq record.idempotencyKey + 1) now record

def updateStatement (db : Database) (now : ℕ) (key : String) (state : TargetState)
    (details : StateDetails) : Option (Database × Option ProjectionRow) :=
  db.updateAt (db.maxSeq key + 1) now key state details

/-- The transaction of `settleAndEnqueue` at a given sequence number: the update
and, when it returned a row, the notification under its id. -/
def settleAt (db : Database) (seq now : ℕ) (key : String) (details : StateDetails)
    (event : Option (String × SettlementNotification)) :
    Option (Database × Option ProjectionRow) :=
  (db.updateAt seq now key .settled details).map fun (db, row) =>
    (if row.isSome then { db with outbox := db.outbox ++ event.toList } else db, row)

def settleTransaction (db : Database) (now : ℕ) (key : String) (details : StateDetails)
    (event : Option (String × SettlementNotification)) :
    Option (Database × Option ProjectionRow) :=
  db.settleAt (db.maxSeq key + 1) now key details event

/-- `SELECT … ORDER BY seq ASC`. -/
def selectLog (db : Database) (key : String) : List (SettlementEvent ℕ) :=
  ((db.log key).mergeSort fun left right => left.seq ≤ right.seq).map mapEventRow

end Database

/-- One store over its database, with the process-local copy of its own writes
that it degrades to. -/
structure PostgresSettlementStore where
  database : Database
  memory : MemorySettlementStore ℕ
  degraded : Bool

/-- How one operation goes: whether its statement fails, and the two clocks. -/
structure Conditions where
  fails : Bool
  databaseNow : ℕ
  now : ℕ

/-- The record that `save` hands to the in-memory copy. -/
def Settlement.toInput (entry : Settlement ℕ) : SettlementInput where
  idempotencyKey := entry.idempotencyKey
  network := some entry.network
  scheme := some entry.scheme
  payer := entry.payer
  payTo := entry.payTo
  asset := entry.asset
  amount := entry.amount
  txHash := entry.txHash
  keyId := entry.keyId

namespace PostgresSettlementStore

def empty : PostgresSettlementStore := ⟨.empty, .empty, false⟩

def attempt {α : Type*} (conditions : Conditions) (statement : Option α) : Option α :=
  if conditions.fails then none else statement

/-- `super.save`, after degrading when the statement has failed. -/
def saveInMemory (store : PostgresSettlementStore) (now : ℕ) (record : SettlementInput) :
    PostgresSettlementStore × Option (Settlement ℕ) :=
  let (memory, saved) := store.memory.save now record
  ({ store with memory := memory, degraded := true }, saved)

/-- `super.updateState`, after degrading when the statement has failed. -/
def updateInMemory (store : PostgresSettlementStore) (now : ℕ) (key : String)
    (state : TargetState) (details : StateDetails) :
    PostgresSettlementStore × Option (Settlement ℕ) :=
  let (memory, updated) := store.memory.updateState now key state details
  ({ store with memory := memory, degraded := true }, updated)

def save (store : PostgresSettlementStore) (conditions : Conditions)
    (record : SettlementInput) : PostgresSettlementStore × Option (Settlement ℕ) :=
  if store.degraded then store.saveInMemory conditions.now record
  else
    match attempt conditions
        (store.database.saveStatement conditions.databaseNow record) with
    | none => store.saveInMemory conditions.now record
    | some (database, row) =>
        let entry := (mapProjectionRow row).columns
        let (memory, _) := store.memory.save conditions.now entry.toInput
        ({ store with database := database, memory := memory }, some entry)

/-- What `updateState` and `settleAndEnqueue` do with the row their statement
returned. -/
def afterUpdate (store : PostgresSettlementStore) (conditions : Conditions)
    (key : String) (state : TargetState) (details : StateDetails) (database : Database) :
    Option ProjectionRow → PostgresSettlementStore × Option (Settlement ℕ)
  | none => ({ store with database := database }, none)
  | some row =>
      let (memory, _) := store.memory.updateState conditions.now key state details
      ({ store with database := database, memory := memory },
        some (mapProjectionRow row).columns)

def updateState (store : PostgresSettlementStore) (conditions : Conditions)
    (key : String) (state : TargetState) (details : StateDetails) :
    PostgresSettlementStore × Option (Settlement ℕ) :=
  if store.degraded then store.updateInMemory conditions.now key state details
  else
    match attempt conditions
        (store.database.updateStatement conditions.databaseNow key state details) with
    | none => store.updateInMemory conditions.now key state details
    | some (database, row) => store.afterUpdate conditions key state details database row

/-- `updateState` with a state that is mapped to no event type: the error is
taken for an outage, and the memory store throws it again. -/
def updateUnmapped (store : PostgresSettlementStore) : PostgresSettlementStore :=
  { store with degraded := true }

/-- The answer says whether the notification was written with the state change;
otherwise it is handed back for a direct publish. -/
def settleAndEnqueue (store : PostgresSettlementStore) (conditions : Conditions)
    (key : String) (details : StateDetails)
    (event : Option (String × SettlementNotification)) :
    PostgresSettlementStore × Bool × Option (Settlement ℕ) ×
      Option (String × SettlementNotification) :=
  if store.degraded then
    let (store, record) := store.updateInMemory conditions.now key .settled details
    (store, false, record, event)
  else
    match attempt conditions
        (store.database.settleTransaction conditions.databaseNow key details event) with
    | none =>
        let (store, record) := store.updateInMemory conditions.now key .settled details
        (store, false, record, event)
    | some (database, row) =>
        let (store, record) :=
          store.afterUpdate conditions key .settled details database row
        (store, true, record, event)

def get (store : PostgresSettlementStore) (key : String) : Option (Settlement ℕ) :=
  if store.degraded then store.memory.get key
  else (store.database.projections.get key).map fun row => (mapProjectionRow row).columns

def getEventLog (store : PostgresSettlementStore) (key : String) :
    List (SettlementEvent ℕ) :=
  if store.degraded then store.memory.getEventLog key
  else store.database.selectLog key

/-- The row that `rebuildProjection` writes from the fold of `count` events. -/
def rebuiltRow (projection : Settlement ℕ) (count : ℕ) : ProjectionRow where
  columns := { projection.mapTime toMicros with
    response := responseParameter projection.response }
  version := count

/-- Replay the log through the fold and overwrite the row with the result. -/
def rebuildProjection (store : PostgresSettlementStore) (key : String) :
    PostgresSettlementStore × Option (Settlement ℕ) :=
  if store.degraded then (store, store.memory.rebuildProjection key)
  else
    let events := store.getEventLog key
    match projectSettlement events with
    | none => (store, none)
    | some projection =>
        let row := rebuiltRow projection events.length
        ({ store with
            database := store.database.setProjection projection.idempotencyKey row },
          some (mapProjectionRow row).columns)

end PostgresSettlementStore

end X402Facilitator
