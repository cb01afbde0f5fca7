import X402Facilitator.Library.Execution
import X402Facilitator.Library.Table

/-!
# Dead letters and their redelivery

Retry workers claim due rows, operators replay a row through the HTTP route or
the manager, or discard it.  A redelivery publishes the payload and marks the
row; it is suspended at the publication and at every statement, may crash there,
and a statement may fail before or after it has been executed.
-/

namespace X402Facilitator.Dlq

inductive Status where
  | pending
  | exhausted
  | resolved
  | discarded
  deriving DecidableEq, Repr

def Status.terminal : Status → Bool
  | .resolved | .discarded => true
  | .pending | .exhausted => false

/-- A row of `dead_letters`.  Its id is its place in the table. -/
structure Row (Payload : Type*) where
  messageId : String
  source : String
  type : Option String
  payload : Payload
  error : Option String
  deliveryAttempts : ℕ
  dlqAttempts : ℕ
  status : Status
  nextRetryAt : ℕ
  claimedAt : Option ℕ

/-- A row as `claimDue` or `get` returned it. -/
structure Fetched (Payload : Type*) where
  id : ℕ
  row : Row Payload

structure RetryOptions where
  maxDlqAttempts : ℕ
  baseBackoffMs : ℕ

/-- The defaults of `markRetryFailed`. -/
def RetryOptions.default : RetryOptions := ⟨5, 30000⟩

structure Options where
  retry : RetryOptions
  batchSize : ℕ
  leaseMs : ℕ

variable {Payload : Type*}

def insert (rows : List (Row Payload)) (messageId source : String) (type : Option String)
    (payload : Payload) (error : Option String) (deliveryAttempts now : ℕ) : List (Row Payload) :=
  rows ++ [⟨messageId, source, type, payload, error, deliveryAttempts, 0, .pending, now, none⟩]

/-- Pending and due, and not claimed, or claimed with a lease that has run out. -/
def Row.Due (leaseMs now : ℕ) (row : Row Payload) : Prop :=
  row.status = .pending ∧ row.nextRetryAt ≤ now ∧ ∀ since ∈ row.claimedAt, since + leaseMs < now

instance (leaseMs now : ℕ) (row : Row Payload) : Decidable (row.Due leaseMs now) :=
  inferInstanceAs (Decidable (_ ∧ _))

/-- `SKIP LOCKED` may pass over any row, so that a batch is any due rows, up to the
limit. -/
def Batch (options : Options) (rows : List (Row Payload)) (now : ℕ) (ids : List ℕ) : Prop :=
  ids.Nodup ∧ ids.length ≤ options.batchSize ∧
    ∀ id ∈ ids, ∃ row ∈ rows[id]?, row.Due options.leaseMs now

instance (options : Options) (rows : List (Row Payload)) (now : ℕ) (ids : List ℕ) :
    Decidable (Batch options rows now ids) :=
  inferInstanceAs (Decidable (_ ∧ _))

def Row.claim (now : ℕ) (row : Row Payload) : Row Payload := { row with claimedAt := some now }

def fetch (rows : List (Row Payload)) (id : ℕ) : Option (Fetched Payload) :=
  rows[id]?.map fun row => ⟨id, row⟩

/-- `claimDue`: the rows it returns, and the table. -/
def claimDue (rows : List (Row Payload)) (now : ℕ) (ids : List ℕ) :
    List (Fetched Payload) × List (Row Payload) :=
  (ids.filterMap (fetch rows),
    Table.updateWhere (· ∈ ids) (Row.claim now) rows)

def Row.markResolved (row : Row Payload) : Row Payload :=
  { row with status := .resolved, claimedAt := none }

def markResolved (rows : List (Row Payload)) (id : ℕ) : List (Row Payload) :=
  rows.modify id Row.markResolved

def Row.markRetryFailed (retry : RetryOptions) (error : String) (now : ℕ) (row : Row Payload) :
    Row Payload :=
  { row with
    dlqAttempts := row.dlqAttempts + 1
    error := some error
    status := if retry.maxDlqAttempts ≤ row.dlqAttempts + 1 then .exhausted else .pending
    nextRetryAt := now + retry.baseBackoffMs * Nat.pow 2 row.dlqAttempts
    claimedAt := none }

def markRetryFailed (rows : List (Row Payload)) (id : ℕ) (error : String) (retry : RetryOptions)
    (now : ℕ) : List (Row Payload) :=
  rows.modify id (Row.markRetryFailed retry error now)

def Row.discard (row : Row Payload) : Row Payload := { row with status := .discarded }

def discard (rows : List (Row Payload)) (id : ℕ) : List (Row Payload) :=
  rows.modify id Row.discard

inductive Path where
  | worker
  | route
  | manager
  deriving DecidableEq, Repr

/-- The manager passes no options to `markRetryFailed`. -/
def Path.retry (options : Options) : Path → RetryOptions
  | .worker | .route => options.retry
  | .manager => .default

def refusal : Status → Option String
  | .discarded => some "already_discarded"
  | .resolved => some "already_resolved"
  | .pending | .exhausted => none

def Path.notFound : Path → String
  | .manager => "not_found"
  | .worker | .route => "dead_letter_not_found"

inductive Answer where
  | polled
  | delivered
  | failed (error : String)
  | refused (reason : String)
  | discarded
  deriving DecidableEq, Repr

/-- One poll of a worker, one replay, or one call of the discard route.  `rows` and
`rest` are the fetched rows that are left. -/
inductive Task (Payload : Type*) where
  | notStarted
  | waiting (path : Path) (rows : List (Fetched Payload))
  | publishing (path : Path) (row : Fetched Payload) (rest : List (Fetched Payload))
  | markingResolved (path : Path) (executed : Bool) (row : Fetched Payload)
      (rest : List (Fetched Payload))
  | markingFailed (path : Path) (executed : Bool) (error : String) (row : Fetched Payload)
      (rest : List (Fetched Payload))
  | discarding (executed : Bool) (id : ℕ)
  | finished (answer : Answer)
  | crashed

/-- After `markResolved`: a worker goes on with its batch. -/
def Task.afterResolved (path : Path) (rest : List (Fetched Payload)) : Task Payload :=
  match path with
  | .worker => .waiting .worker rest
  | .route | .manager => .finished .delivered

/-- After `markRetryFailed`. -/
def Task.afterFailed (path : Path) (error : String) (rest : List (Fetched Payload)) :
    Task Payload :=
  match path with
  | .worker => .waiting .worker rest
  | .route | .manager => .finished (.failed error)

/-- After the `get` of a replay. -/
def Task.replay (path : Path) (found : Option (Fetched Payload)) : Task Payload :=
  match found with
  | none => .finished (.refused path.notFound)
  | some fetched =>
      match refusal fetched.row.status with
      | some reason => .finished (.refused reason)
      | none => .waiting path [fetched]

/-- After the `get` of the discard route. -/
def Task.discard (found : Option (Fetched Payload)) : Task Payload :=
  match found with
  | none => .finished (.refused (Path.notFound .route))
  | some fetched => .discarding false fetched.id

/-- The table and the tasks, with a history: the rows whose failures were recorded,
and each publication that began, with the status of its row at that time. -/
structure System (Payload : Type*) where
  rows : List (Row Payload)
  tasks : ℕ → Task Payload
  now : ℕ
  failures : List ℕ
  begun : List (ℕ × Option Status)

def System.init : System Payload where
  rows := []
  tasks := fun _ => .notStarted
  now := 0
  failures := []
  begun := []

/-- A claim may be executed although its answer is lost.  Claims and reads that fail
change nothing and are no steps. -/
inductive Action (Payload : Type*) where
  | insert (messageId source : String) (type : Option String) (payload : Payload)
      (error : Option String) (deliveryAttempts : ℕ)
  | wait (millis : ℕ)
  | poll (task : ℕ) (ids : List ℕ) (answered : Bool)
  | replay (task : ℕ) (path : Path) (id : ℕ)
  | discard (task id : ℕ)
  | begin (task : ℕ)
  | publishResolves (task : ℕ)
  | publishRejects (task : ℕ) (error : String)
  | execute (task : ℕ)
  | answer (task : ℕ)
  | reject (task : ℕ) (error : String)
  | crash (task : ℕ)

def System.setTask (s : System Payload) (task : ℕ) (state : Task Payload) : System Payload :=
  { s with tasks := Function.update s.tasks task state }

/-- The statement that the task awaits is executed. -/
def execute (options : Options) (s : System Payload) (task : ℕ) : Option (System Payload) :=
  match s.tasks task with
  | .markingResolved path false row rest =>
      some { s.setTask task (.markingResolved path true row rest) with
        rows := markResolved s.rows row.id }
  | .markingFailed path false error row rest =>
      some { s.setTask task (.markingFailed path true error row rest) with
        rows := markRetryFailed s.rows row.id error (path.retry options) s.now
        failures := s.failures ++ [row.id] }
  | .discarding false id =>
      some { s.setTask task (.discarding true id) with rows := Dlq.discard s.rows id }
  | _ => none

def answer (s : System Payload) (task : ℕ) : Option (System Payload) :=
  match s.tasks task with
  | .markingResolved path true _ rest => some (s.setTask task (.afterResolved path rest))
  | .markingFailed path true error _ rest => some (s.setTask task (.afterFailed path error rest))
  | .discarding true _ => some (s.setTask task (.finished .discarded))
  | _ => none

/-- The statement of the task is reported as failed.  `markResolved` is inside the
`try` whose `catch` records a failure; a failure there ends the task. -/
def reject (s : System Payload) (task : ℕ) (error : String) : Option (System Payload) :=
  match s.tasks task with
  | .markingResolved path _ row rest =>
      some (s.setTask task (.markingFailed path false error row rest))
  | .markingFailed _ _ _ _ _ => some (s.setTask task .crashed)
  | .discarding _ _ => some (s.setTask task .crashed)
  | _ => none

/-- The next publication of the task begins, if there is one. -/
def begin (s : System Payload) (task : ℕ) : Option (System Payload) :=
  match s.tasks task with
  | .waiting _ [] => some (s.setTask task (.finished .polled))
  | .waiting path (row :: rest) =>
      some { s.setTask task (.publishing path row rest) with
        begun := s.begun ++ [(row.id, s.rows[row.id]?.map Row.status)] }
  | _ => none

def step (options : Options) (s : System Payload) : Action Payload → Option (System Payload)
  | .insert messageId source type payload error deliveryAttempts =>
      some { s with
        rows := insert s.rows messageId source type payload error deliveryAttempts s.now }
  | .wait millis => some { s with now := s.now + millis }
  | .poll task ids answered =>
      match s.tasks task with
      | .notStarted =>
          if Batch options s.rows s.now ids then
            let claimed := claimDue s.rows s.now ids
            some { s.setTask task
                (if answered then .waiting .worker claimed.1 else .finished .polled) with
              rows := claimed.2 }
          else none
      | _ => none
  | .replay task path id =>
      match s.tasks task with
      | .notStarted =>
          if path = .worker then none else some (s.setTask task (.replay path (fetch s.rows id)))
      | _ => none
  | .discard task id =>
      match s.tasks task with
      | .notStarted => some (s.setTask task (.discard (fetch s.rows id)))
      | _ => none
  | .begin task => begin s task
  | .publishResolves task =>
      match s.tasks task with
      | .publishing path row rest => some (s.setTask task (.markingResolved path false row rest))
      | _ => none
  | .publishRejects task error =>
      match s.tasks task with
      | .publishing path row rest =>
          some (s.setTask task (.markingFailed path false error row rest))
      | _ => none
  | .execute task => execute options s task
  | .answer task => answer s task
  | .reject task error => reject s task error
  | .crash task =>
      match s.tasks task with
      | .notStarted | .finished _ | .crashed => none
      | _ => some (s.setTask task .crashed)

section Steps

variable {options : Options} {s s' : System Payload} {action : Action Payload}

inductive Steps (options : Options) (s : System Payload) :
    Action Payload → System Payload → Prop where
  | insert (messageId source : String) (type : Option String) (payload : Payload)
      (error : Option String) (deliveryAttempts : ℕ) :
      Steps options s (.insert messageId source type payload error deliveryAttempts) { s with
        rows := insert s.rows messageId source type payload error deliveryAttempts s.now }
  | wait (millis : ℕ) : Steps options s (.wait millis) { s with now := s.now + millis }
  | poll (task : ℕ) (ids : List ℕ) (answered : Bool) (htask : s.tasks task = .notStarted)
      (hbatch : Batch options s.rows s.now ids) :
      Steps options s (.poll task ids answered) { s.setTask task
          (if answered then .waiting .worker (claimDue s.rows s.now ids).1
            else .finished .polled) with
        rows := (claimDue s.rows s.now ids).2 }
  | replay (task : ℕ) (path : Path) (id : ℕ) (htask : s.tasks task = .notStarted)
      (hpath : path ≠ .worker) :
      Steps options s (.replay task path id) (s.setTask task (.replay path (fetch s.rows id)))
  | discard (task id : ℕ) (htask : s.tasks task = .notStarted) :
      Steps options s (.discard task id) (s.setTask task (.discard (fetch s.rows id)))
  | polled (task : ℕ) (path : Path) (htask : s.tasks task = .waiting path []) :
      Steps options s (.begin task) (s.setTask task (.finished .polled))
  | begin (task : ℕ) (path : Path) (row : Fetched Payload) (rest : List (Fetched Payload))
      (htask : s.tasks task = .waiting path (row :: rest)) :
      Steps options s (.begin task) { s.setTask task (.publishing path row rest) with
        begun := s.begun ++ [(row.id, s.rows[row.id]?.map Row.status)] }
  | publishResolves (task : ℕ) (path : Path) (row : Fetched Payload)
      (rest : List (Fetched Payload)) (htask : s.tasks task = .publishing path row rest) :
      Steps options s (.publishResolves task)
        (s.setTask task (.markingResolved path false row rest))
  | publishRejects (task : ℕ) (error : String) (path : Path) (row : Fetched Payload)
      (rest : List (Fetched Payload)) (htask : s.tasks task = .publishing path row rest) :
      Steps options s (.publishRejects task error)
        (s.setTask task (.markingFailed path false error row rest))
  | markResolved (task : ℕ) (path : Path) (row : Fetched Payload)
      (rest : List (Fetched Payload))
      (htask : s.tasks task = .markingResolved path false row rest) :
      Steps options s (.execute task)
        { s.setTask task (.markingResolved path true row rest) with
          rows := markResolved s.rows row.id }
  | markFailed (task : ℕ) (path : Path) (error : String) (row : Fetched Payload)
      (rest : List (Fetched Payload))
      (htask : s.tasks task = .markingFailed path false error row rest) :
      Steps options s (.execute task)
        { s.setTask task (.markingFailed path true error row rest) with
          rows := markRetryFailed s.rows row.id error (path.retry options) s.now
          failures := s.failures ++ [row.id] }
  | markDiscarded (task id : ℕ) (htask : s.tasks task = .discarding false id) :
      Steps options s (.execute task)
        { s.setTask task (.discarding true id) with rows := Dlq.discard s.rows id }
  | afterResolved (task : ℕ) (path : Path) (row : Fetched Payload)
      (rest : List (Fetched Payload))
      (htask : s.tasks task = .markingResolved path true row rest) :
      Steps options s (.answer task) (s.setTask task (.afterResolved path rest))
  | afterFailed (task : ℕ) (path : Path) (error : String) (row : Fetched Payload)
      (rest : List (Fetched Payload))
      (htask : s.tasks task = .markingFailed path true error row rest) :
      Steps options s (.answer task) (s.setTask task (.afterFailed path error rest))
  | afterDiscarded (task id : ℕ) (htask : s.tasks task = .discarding true id) :
      Steps options s (.answer task) (s.setTask task (.finished .discarded))
  | rejectResolved (task : ℕ) (error : String) (path : Path) (executed : Bool)
      (row : Fetched Payload) (rest : List (Fetched Payload))
      (htask : s.tasks task = .markingResolved path executed row rest) :
      Steps options s (.reject task error)
        (s.setTask task (.markingFailed path false error row rest))
  | rejectFailed (task : ℕ) (error : String) (path : Path) (executed : Bool) (failure : String)
      (row : Fetched Payload) (rest : List (Fetched Payload))
      (htask : s.tasks task = .markingFailed path executed failure row rest) :
      Steps options s (.reject task error) (s.setTask task .crashed)
  | rejectDiscarded (task : ℕ) (error : String) (executed : Bool) (id : ℕ)
      (htask : s.tasks task = .discarding executed id) :
      Steps options s (.reject task error) (s.setTask task .crashed)
  | crash (task : ℕ) : Steps options s (.crash task) (s.setTask task .crashed)

theorem steps_of_execute {task : ℕ} (hstep : execute options s task = some s') :
    Steps options s (.execute task) s' := by
  rw [execute] at hstep
  split at hstep
  · next path row rest htask =>
      cases hstep
      exact .markResolved task path row rest htask
  · next path error row rest htask =>
      cases hstep
      exact .markFailed task path error row rest htask
  · next id htask =>
      cases hstep
      exact .markDiscarded task id htask
  · cases hstep

theorem steps_of_answer {task : ℕ} (hstep : answer s task = some s') :
    Steps options s (.answer task) s' := by
  rw [answer] at hstep
  split at hstep
  · next path row rest htask =>
      cases hstep
      exact .afterResolved task path row rest htask
  · next path error row rest htask =>
      cases hstep
      exact .afterFailed task path error row rest htask
  · next id htask =>
      cases hstep
      exact .afterDiscarded task id htask
  · cases hstep

theorem steps_of_reject {task : ℕ} {error : String} (hstep : reject s task error = some s') :
    Steps options s (.reject task error) s' := by
  rw [reject] at hstep
  split at hstep
  · next path executed row rest htask =>
      cases hstep
      exact .rejectResolved task error path executed row rest htask
  · next path executed failure row rest htask =>
      cases hstep
      exact .rejectFailed task error path executed failure row rest htask
  · next executed id htask =>
      cases hstep
      exact .rejectDiscarded task error executed id htask
  · cases hstep

theorem steps_of_begin {task : ℕ} (hstep : begin s task = some s') :
    Steps options s (.begin task) s' := by
  rw [begin] at hstep
  split at hstep
  · next path htask =>
      cases hstep
      exact .polled task path htask
  · next path row rest htask =>
      cases hstep
      exact .begin task path row rest htask
  · cases hstep

theorem steps_of_step (hstep : step options s action = some s') : Steps options s action s' := by
  cases action with
  | insert messageId source type payload error deliveryAttempts =>
      cases hstep
      exact .insert messageId source type payload error deliveryAttempts
  | wait millis =>
      cases hstep
      exact .wait millis
  | poll task ids answered =>
      simp only [step] at hstep
      split at hstep
      · next htask =>
          split at hstep
          · next hbatch =>
              cases hstep
              exact .poll task ids answered htask hbatch
          · cases hstep
      · cases hstep
  | replay task path id =>
      simp only [step] at hstep
      split at hstep
      · next htask =>
          split at hstep
          · cases hstep
          · next hpath =>
              cases hstep
              exact .replay task path id htask hpath
      · cases hstep
  | discard task id =>
      simp only [step] at hstep
      split at hstep
      · next htask =>
          cases hstep
          exact .discard task id htask
      · cases hstep
  | begin task => exact steps_of_begin hstep
  | publishResolves task =>
      simp only [step] at hstep
      split at hstep
      · next path row rest htask =>
          cases hstep
          exact .publishResolves task path row rest htask
      · cases hstep
  | publishRejects task error =>
      simp only [step] at hstep
      split at hstep
      · next path row rest htask =>
          cases hstep
          exact .publishRejects task error path row rest htask
      · cases hstep
  | execute task => exact steps_of_execute hstep
  | answer task => exact steps_of_answer hstep
  | reject task error => exact steps_of_reject hstep
  | crash task =>
      simp only [step] at hstep
      split at hstep
      · cases hstep
      · cases hstep
      · cases hstep
      · cases hstep
        exact .crash task

end Steps

end X402Facilitator.Dlq
