import X402Facilitator.Library.Execution
import X402Facilitator.Library.Json
import X402Facilitator.Library.Table

/-!
# The outbox and its workers

Any number of worker ticks, in one process or in several, claim rows, publish
each and mark it.  A tick is suspended at every publication and at every
statement, may crash there, and a statement may fail before or after it has
been executed.
-/

namespace X402Facilitator.Outbox

inductive Status where
  | pending
  | claimed
  | published
  | failed
  deriving DecidableEq, Repr

/-- A row of `outbox_events`.  Its id is its place in the table. -/
structure Row where
  eventId : String
  type : String
  payload : Json
  status : Status
  attempts : ℕ
  lastError : Option String
  claimedAt : Option ℕ
  publishedAt : Option ℕ

/-- What `claimBatch` returns of a row. -/
structure Claimed where
  id : ℕ
  eventId : String
  type : String
  payload : Json
  attempts : ℕ

/-- The published `{ id, ...payload, publishedAt }`: a member of the payload
comes before `id`, and `publishedAt` before both. -/
structure Record where
  id : String
  payload : Json
  publishedAt : String

/-- A row of `dead_letters` as it is inserted. -/
structure DeadLetter where
  messageId : String
  source : String
  type : String
  payload : Record
  error : Option String
  deliveryAttempts : ℕ

/-- `dlq` tells whether there is one, and `now` is the text of the worker's
clock. -/
structure Options where
  maxAttempts : ℕ
  batchSize : ℕ
  leaseMs : ℕ
  dlq : Bool
  now : ℕ → String

def utf16Units (char : Char) : ℕ := if char.toNat ≤ 0xFFFF then 1 else 2

/-- `text.slice(0, units)` as it is stored: half of a surrogate pair is replaced. -/
def slice : ℕ → List Char → List Char
  | _, [] => []
  | units, char :: chars =>
      if utf16Units char ≤ units then char :: slice (units - utf16Units char) chars
      else if units = 0 then [] else ['\uFFFD']

def insertEvent (rows : List Row) (eventId type : String) (payload : Json) : List Row :=
  if ∃ row ∈ rows, row.eventId = eventId then rows
  else rows ++ [⟨eventId, type, payload, .pending, 0, none, none, none⟩]

/-- Pending, or claimed with a lease that has run out. -/
def Row.Claimable (leaseMs now : ℕ) (row : Row) : Prop :=
  row.status = .pending ∨
    row.status = .claimed ∧ ∃ since ∈ row.claimedAt, since + leaseMs < now

instance (leaseMs now : ℕ) (row : Row) : Decidable (row.Claimable leaseMs now) :=
  inferInstanceAs (Decidable (_ ∨ _))

def Row.claim (now : ℕ) (row : Row) : Row :=
  { row with status := .claimed, claimedAt := some now }

def Row.returning (id : ℕ) (row : Row) : Claimed :=
  ⟨id, row.eventId, row.type, row.payload, row.attempts⟩

/-- `SKIP LOCKED` may pass over any row, so that a batch is any claimable rows, up
to the limit. -/
def Batch (options : Options) (rows : List Row) (now : ℕ) (ids : List ℕ) : Prop :=
  ids.Nodup ∧ ids.length ≤ options.batchSize ∧
    ∀ id ∈ ids, ∃ row ∈ rows[id]?, row.Claimable options.leaseMs now

instance (options : Options) (rows : List Row) (now : ℕ) (ids : List ℕ) :
    Decidable (Batch options rows now ids) :=
  inferInstanceAs (Decidable (_ ∧ _))

/-- `claimBatch`: the rows it returns, and the table. -/
def claimBatch (rows : List Row) (now : ℕ) (ids : List ℕ) : List Claimed × List Row :=
  (ids.filterMap fun id => rows[id]?.map (Row.returning id),
    Table.updateWhere (· ∈ ids) (Row.claim now) rows)

def Row.markPublished (now : ℕ) (row : Row) : Row :=
  { row with
    status := .published, publishedAt := some now, claimedAt := none, lastError := none }

def markPublished (rows : List Row) (id now : ℕ) : List Row :=
  rows.modify id (Row.markPublished now)

def Row.markFailed (maxAttempts : ℕ) (error : Option String) (row : Row) : Row :=
  { row with
    attempts := row.attempts + 1
    lastError := some (String.ofList (slice 2000 (error.getD "").toList))
    status := if maxAttempts ≤ row.attempts + 1 then .failed else .pending
    claimedAt := none }

def markFailed (rows : List Row) (id : ℕ) (error : Option String) (maxAttempts : ℕ) : List Row :=
  rows.modify id (Row.markFailed maxAttempts error)

/-- What a tick awaits for the row at hand: its publication, or a statement, which
has been executed or not. -/
inductive Stage where
  | publishing
  | markingPublished (executed : Bool)
  | markingFailed (executed : Bool) (error : Option String)
  | inserting (executed : Bool) (error : Option String)
  deriving DecidableEq

/-- One call of `pollOutboxOnce`: `rest` are the rows of its batch that are left. -/
inductive Tick where
  | notStarted
  | working (row : Claimed) (record : Record) (stage : Stage) (rest : List Claimed)
  | finished
  | crashed

def Claimed.record (row : Claimed) (publishedAt : String) : Record :=
  ⟨row.eventId, row.payload, publishedAt⟩

def Claimed.exhausted (options : Options) (row : Claimed) : Bool :=
  options.maxAttempts ≤ row.attempts + 1

def Claimed.deadLetter (row : Claimed) (record : Record) (error : Option String) : DeadLetter where
  messageId := row.eventId
  source := "outbox"
  type := row.type
  payload := record
  error := error
  deliveryAttempts := row.attempts + 1

def Tick.next (publishedAt : String) : List Claimed → Tick
  | [] => .finished
  | row :: rest => .working row (row.record publishedAt) .publishing rest

/-- The loop body after `markFailed`, whether or not that succeeded. -/
def Tick.afterMarkFailed (options : Options) (publishedAt : String) (row : Claimed)
    (record : Record) (error : Option String) (rest : List Claimed) : Tick :=
  if row.exhausted options && options.dlq then .working row record (.inserting false error) rest
  else .next publishedAt rest

/-- The table, the dead letters and the ticks, with a history: who claimed a row
last, the rows whose publication succeeded, those whose `markPublished` was
answered, and the failures, by tick and row, of publications and those that
`markFailed` recorded. -/
structure System where
  rows : List Row
  letters : List DeadLetter
  ticks : ℕ → Tick
  now : ℕ
  holder : ℕ → Option ℕ
  succeeded : List ℕ
  completed : List ℕ
  failures : List (ℕ × ℕ)
  recorded : List (ℕ × ℕ)

def System.init : System where
  rows := []
  letters := []
  ticks := fun _ => .notStarted
  now := 0
  holder := fun _ => none
  succeeded := []
  completed := []
  failures := []
  recorded := []

/-- A claim may be executed although its answer is lost. -/
inductive Action where
  | enqueue (eventId type : String) (payload : Json)
  | wait (millis : ℕ)
  | claim (tick : ℕ) (ids : List ℕ) (answered : Bool)
  | claimFails (tick : ℕ)
  | publishResolves (tick : ℕ)
  | publishRejects (tick : ℕ) (error : Option String)
  | execute (tick : ℕ)
  | answer (tick : ℕ)
  | reject (tick : ℕ) (error : Option String)
  | crash (tick : ℕ)

def System.setTick (s : System) (tick : ℕ) (state : Tick) : System :=
  { s with ticks := Function.update s.ticks tick state }

/-- The statement that the tick awaits is executed. -/
def execute (options : Options) (s : System) (tick : ℕ) : Option System :=
  match s.ticks tick with
  | .working row record (.markingPublished false) rest =>
      some { s.setTick tick (.working row record (.markingPublished true) rest) with
        rows := markPublished s.rows row.id s.now }
  | .working row record (.markingFailed false error) rest =>
      some { s.setTick tick (.working row record (.markingFailed true error) rest) with
        rows := markFailed s.rows row.id error options.maxAttempts
        recorded := s.recorded ++ [(tick, row.id)] }
  | .working row record (.inserting false error) rest =>
      some { s.setTick tick (.working row record (.inserting true error) rest) with
        letters := s.letters ++ [row.deadLetter record error] }
  | _ => none

def answer (options : Options) (s : System) (tick : ℕ) : Option System :=
  match s.ticks tick with
  | .working row _ (.markingPublished true) rest =>
      some { s.setTick tick (.next (options.now s.now) rest) with
        completed := s.completed ++ [row.id] }
  | .working row record (.markingFailed true error) rest =>
      some (s.setTick tick (.afterMarkFailed options (options.now s.now) row record error rest))
  | .working _ _ (.inserting true _) rest => some (s.setTick tick (.next (options.now s.now) rest))
  | _ => none

/-- The statement of the tick is reported as failed.  Only `markPublished` is inside
the `try` whose `catch` marks the row as failed. -/
def reject (options : Options) (s : System) (tick : ℕ) (error : Option String) : Option System :=
  match s.ticks tick with
  | .working row record (.markingPublished _) rest =>
      some (s.setTick tick (.working row record (.markingFailed false error) rest))
  | .working row record (.markingFailed _ cause) rest =>
      some (s.setTick tick (.afterMarkFailed options (options.now s.now) row record cause rest))
  | .working _ _ (.inserting _ _) rest => some (s.setTick tick (.next (options.now s.now) rest))
  | _ => none

def step (options : Options) (s : System) : Action → Option System
  | .enqueue eventId type payload =>
      some { s with rows := insertEvent s.rows eventId type payload }
  | .wait millis => some { s with now := s.now + millis }
  | .claim tick ids answered =>
      match s.ticks tick with
      | .notStarted =>
          if Batch options s.rows s.now ids then
            let claimed := claimBatch s.rows s.now ids
            some { s.setTick tick
                (if answered then .next (options.now s.now) claimed.1 else .finished) with
              rows := claimed.2
              holder := fun id => if id ∈ ids then some tick else s.holder id }
          else none
      | _ => none
  | .claimFails tick =>
      match s.ticks tick with
      | .notStarted => some (s.setTick tick .finished)
      | _ => none
  | .publishResolves tick =>
      match s.ticks tick with
      | .working row record .publishing rest =>
          some { s.setTick tick (.working row record (.markingPublished false) rest) with
            succeeded := s.succeeded ++ [row.id] }
      | _ => none
  | .publishRejects tick error =>
      match s.ticks tick with
      | .working row record .publishing rest =>
          some { s.setTick tick (.working row record (.markingFailed false error) rest) with
            failures := s.failures ++ [(tick, row.id)] }
      | _ => none
  | .execute tick => execute options s tick
  | .answer tick => answer options s tick
  | .reject tick error => reject options s tick error
  | .crash tick =>
      match s.ticks tick with
      | .working _ _ _ _ => some (s.setTick tick .crashed)
      | _ => none

end X402Facilitator.Outbox
