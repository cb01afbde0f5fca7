import X402Facilitator.Catalog.Memory
import X402Facilitator.Library.Execution
import X402Facilitator.Library.Table
import Mathlib.Data.List.Perm.Basic

/-!
# The catalog over a table

The durable store writes memory at once and the table later: every operation starts a
task that waits for the boot, sends its statement, and hears of its execution.  The
vector of a listing arrives from a job of its own and starts another task.
-/

namespace X402Facilitator.Catalog

/-- A row of `catalog_resources`.  The link is stored with the source of its vector. -/
structure Row (Vector : Type) where
  resource : Resource
  embeddingSource : Option String
  source : String
  provisional : Bool
  expiresAt : Option ℕ
  firstSeenAt : ℕ
  lastSeenAt : ℕ
  embedding : Option Vector
  schemaVersion : ℕ

/-- The table, by its primary key: the key of a row is that of its listing. -/
structure CatalogTable (Vector : Type) where
  rows : InsertionMap String (Row Vector)
  keyed : ∀ key row, rows.get key = some row → row.resource.key = key

def CatalogTable.empty {Vector : Type} : CatalogTable Vector := ⟨.empty, fun _ _ hrow => by cases hrow⟩

inductive Statement (Vector : Type) where
  | insert (row : Row Vector)
  | delete (keys : List String)

variable {Vector : Type}

/-- What `ON CONFLICT` leaves of a row. -/
def Row.onto (row : Row Vector) (existing : Option (Row Vector)) : Row Vector :=
  { row with firstSeenAt := existing.elim row.firstSeenAt Row.firstSeenAt }

def CatalogTable.insert (table : CatalogTable Vector) (row : Row Vector) : CatalogTable Vector where
  rows := table.rows.set row.resource.key (row.onto (table.rows.get row.resource.key))
  keyed := by
    intro key found hfound
    rcases InsertionMap.get_set_cases hfound with ⟨rfl, rfl⟩ | ⟨-, hold⟩
    · rfl
    · exact table.keyed key found hold

def CatalogTable.deleteKey (table : CatalogTable Vector) (key : String) : CatalogTable Vector where
  rows := table.rows.erase key
  keyed := by
    intro other found hfound
    rw [InsertionMap.get_erase] at hfound
    split at hfound
    · cases hfound
    · exact table.keyed other found hfound

def CatalogTable.execute (table : CatalogTable Vector) : Statement Vector → CatalogTable Vector
  | .insert row => table.insert row
  | .delete keys => keys.foldl CatalogTable.deleteKey table

/-- The parameters of `_persistResource`. -/
def Entry.row (entry : Entry) (embedding : Embedding Vector) : Row Vector where
  resource := entry.resource
  embeddingSource := embedding.embeddingSource
  source := entry.source
  provisional := entry.provisional
  expiresAt := entry.expiresAt
  firstSeenAt := entry.firstSeenAt
  lastSeenAt := entry.lastSeenAt
  embedding := embedding.embedding
  schemaVersion := entry.schemaVersion.getD 1

/-- `hydrateRow` -/
def Row.entry (row : Row Vector) (object : ℕ) : Entry where
  object := object
  resource := row.resource
  source := row.source
  provisional := row.provisional
  expiresAt := row.expiresAt
  firstSeenAt := row.firstSeenAt
  lastSeenAt := row.lastSeenAt
  schemaVersion := some row.schemaVersion

structure Job where
  entry : Entry
  fingerprint : String
  pending : Bool

def Scheduling.jobs (entry : Entry) : Scheduling → List Job
  | .job fingerprint => [⟨entry, fingerprint, true⟩]
  | _ => []

namespace Store

/-- A row takes its key in memory, and is counted. -/
def loadRow (store : Store Vector) (key : String) (row : Row Vector) : Store Vector :=
  { store with
    resources := store.resources.set key (row.entry store.objects)
    payToCounts := incrementPayToCount store.payToCounts row.resource.payTo
    objects := store.objects + 1
    embeddings := Function.update store.embeddings store.objects
      ⟨row.embedding, row.embeddingSource⟩ }

/-- One turn of the loop of `_hydrate`. -/
def hydrateRow (config : Config) (store : Store Vector) (key : String) (row : Row Vector) :
    Store Vector × Scheduling :=
  if row.embedding.isSome then (store.loadRow key row, .skipped)
  else (store.loadRow key row).scheduleEmbed config (row.entry store.objects)

/-- `_hydrate`: the store, the jobs, and whether all rows were loaded. -/
def hydrate (config : Config) (store : Store Vector) :
    List (String × Row Vector) → Store Vector × List Job × Bool
  | [] => (store, [], true)
  | (key, row) :: rows =>
      match store.hydrateRow config key row with
      | (store', .threw) => (store', [], false)
      | (store', scheduling) =>
          let (loaded, jobs, complete) := hydrate config store' rows
          (loaded, scheduling.jobs (row.entry store.objects) ++ jobs, complete)

end Store

/-- What a task is to do to the table: `persist` for an upsert or a vector that has
arrived, `erase` for a prune, `delete` for the removal of a listing. -/
inductive Command where
  | persist (entry : Entry)
  | erase (keys : List String)
  | delete (key : String)

/-- The statement of a command, with what its object holds when it is sent. -/
def Command.statement (embeddings : ℕ → Embedding Vector) : Command → Statement Vector
  | .persist entry => .insert (entry.row (embeddings entry.object))
  | .erase keys => .delete keys
  | .delete key => .delete [key]

inductive Progress (Vector : Type) where
  | waiting
  | sent (statement : Statement Vector)
  | executed
  | ended

structure Task (Vector : Type) where
  command : Command
  progress : Progress Vector

/-- The construction of the store: without a database, before its driver is there,
before the table is read, with its rows, and done. -/
inductive Boot (Vector : Type) where
  | absent
  | importing
  | starting
  | selected (rows : List (String × Row Vector))
  | ready

def Boot.hasPool : Boot Vector → Bool
  | .absent | .importing => false
  | _ => true

structure System (Vector : Type) where
  now : ℕ
  store : Store Vector
  table : CatalogTable Vector
  boot : Boot Vector
  degraded : Bool
  tasks : List (Task Vector)
  jobs : List Job

def System.init (table : CatalogTable Vector) (durable : Bool) : System Vector :=
  ⟨0, .empty, table, if durable then .importing else .absent, false, [], []⟩

/-- `!this.degraded && this.pool` -/
def System.persists (s : System Vector) : Bool := !s.degraded && s.boot.hasPool

def System.startTask (s : System Vector) (command : Command) : System Vector :=
  if s.persists then { s with tasks := s.tasks ++ [⟨command, .waiting⟩] } else s

def System.setProgress (s : System Vector) (id : ℕ) (progress : Progress Vector) :
    System Vector :=
  { s with tasks := s.tasks.modify id fun task => { task with progress := progress } }

/-- `imports` is the arrival of the driver, `selects` the execution of the query that
hydration reads, with the order of its rows.  The driver, the first queries and a
statement that has been sent may fail. -/
inductive Action (Vector : Type) where
  | upsert (resource : Resource) (source : String)
  | delete (url : String) (toolName : Option String)
  | prune
  | imports
  | importFails
  | selects (order : List String)
  | selectFails
  | hydrates
  | sends (id : ℕ)
  | executes (id : ℕ)
  | answers (id : ℕ)
  | fails (id : ℕ)
  | embeds (id : ℕ) (vector : Option Vector)
  | wait (ms : ℕ)
  | restart

/-- The rows of a query in an order of their keys. -/
def CatalogTable.select (table : CatalogTable Vector) (order : List String) :
    List (String × Row Vector) :=
  order.filterMap fun key => (table.rows.get key).map (key, ·)

/-- `upsertResource`.  A `TypeError` of the scheduling skips the write of the row. -/
def System.upsert (config : Config) (s : System Vector) (resource : Resource) (source : String) :
    System Vector :=
  match s.store.upsertResource config s.now resource source with
  | .error _ => s
  | .ok (store, _, .threw) => { s with store := store }
  | .ok (store, entry, scheduling) =>
      System.startTask { s with store := store, jobs := s.jobs ++ scheduling.jobs entry }
        (.persist entry)

/-- `deleteResource`: the row goes first. -/
def System.delete (s : System Vector) (key : String) : System Vector :=
  if s.persists then s.startTask (.delete key)
  else { s with store := s.store.deleteResource s.now key }

def System.prune (s : System Vector) : System Vector :=
  let expired := s.store.expiredKeys s.now
  let pruned := { s with store := s.store.pruneExpired s.now }
  if expired.isEmpty then pruned else pruned.startTask (.erase expired)

/-- The loaded rows; a `TypeError` degrades the store. -/
def System.hydrate (config : Config) (s : System Vector) (rows : List (String × Row Vector)) :
    System Vector :=
  let (store, jobs, complete) := s.store.hydrate config rows
  { s with
    store := store
    boot := .ready
    jobs := s.jobs ++ jobs
    degraded := s.degraded || !complete }

/-- The answer to a statement; a delete goes on in memory. -/
def System.answer (s : System Vector) (id : ℕ) : Command → System Vector
  | .delete key =>
      { s.setProgress id .ended with store := s.store.deleteResource s.now key }
  | _ => s.setProgress id .ended

def System.embed (s : System Vector) (job : Job) (vector : Vector) : System Vector :=
  System.startTask { s with
    store := s.store.setEmbedding job.entry.object ⟨some vector, some job.fingerprint⟩ }
    (.persist job.entry)

def System.endJob (s : System Vector) (id : ℕ) : System Vector :=
  { s with jobs := s.jobs.modify id fun job => { job with pending := false } }

def step (config : Config) (durable : Bool) (s : System Vector) :
    Action Vector → Option (System Vector)
  | .upsert resource source => some (s.upsert config resource source)
  | .delete url toolName => some (s.delete (keyOf url toolName))
  | .prune => some s.prune
  | .imports =>
      match s.boot with
      | .importing => some { s with boot := .starting }
      | _ => none
  | .importFails =>
      match s.boot with
      | .importing => some { s with boot := .absent, degraded := true }
      | _ => none
  | .selects order =>
      match s.boot with
      | .starting =>
          if order.Perm s.table.rows.keys then
            some { s with boot := .selected (s.table.select order) }
          else none
      | _ => none
  | .selectFails =>
      match s.boot with
      | .starting => some { s with boot := .ready, degraded := true }
      | _ => none
  | .hydrates =>
      match s.boot with
      | .selected rows => some (s.hydrate config rows)
      | _ => none
  | .sends id =>
      match s.boot, s.tasks[id]? with
      | .ready, some ⟨command, .waiting⟩ =>
          some (s.setProgress id (.sent (command.statement s.store.embeddings)))
      | _, _ => none
  | .executes id =>
      match s.tasks[id]? with
      | some ⟨_, .sent statement⟩ =>
          some { s.setProgress id .executed with table := s.table.execute statement }
      | _ => none
  | .answers id =>
      match s.tasks[id]? with
      | some ⟨command, .executed⟩ => some (s.answer id command)
      | _ => none
  | .fails id =>
      match s.tasks[id]? with
      | some ⟨_, .sent _⟩ => some { s.setProgress id .ended with degraded := true }
      | _ => none
  | .embeds id vector =>
      match s.jobs[id]? with
      | some ⟨entry, fingerprint, true⟩ =>
          match vector with
          | none => some (s.endJob id)
          | some vector => some ((s.embed ⟨entry, fingerprint, true⟩ vector).endJob id)
      | _ => none
  | .wait ms => some { s with now := s.now + ms }
  | .restart => some { System.init s.table durable with now := s.now }

inductive Steps (config : Config) (durable : Bool) (s : System Vector) :
    Action Vector → System Vector → Prop where
  | upserts (resource : Resource) (source : String) :
      Steps config durable s (.upsert resource source) (s.upsert config resource source)
  | deletes (url : String) (toolName : Option String) :
      Steps config durable s (.delete url toolName) (s.delete (keyOf url toolName))
  | prunes : Steps config durable s .prune s.prune
  | imports (hboot : s.boot = .importing) :
      Steps config durable s .imports { s with boot := .starting }
  | importFails (hboot : s.boot = .importing) :
      Steps config durable s .importFails { s with boot := .absent, degraded := true }
  | selects {order : List String} (hboot : s.boot = .starting)
      (hperm : order.Perm s.table.rows.keys) :
      Steps config durable s (.selects order) { s with boot := .selected (s.table.select order) }
  | selectFails (hboot : s.boot = .starting) :
      Steps config durable s .selectFails { s with boot := .ready, degraded := true }
  | hydrates {rows : List (String × Row Vector)} (hboot : s.boot = .selected rows) :
      Steps config durable s .hydrates (s.hydrate config rows)
  | sends {id : ℕ} {command : Command} (hboot : s.boot = .ready)
      (htask : s.tasks[id]? = some ⟨command, .waiting⟩) :
      Steps config durable s (.sends id)
        (s.setProgress id (.sent (command.statement s.store.embeddings)))
  | executes {id : ℕ} {command : Command} {statement : Statement Vector}
      (htask : s.tasks[id]? = some ⟨command, .sent statement⟩) :
      Steps config durable s (.executes id)
        { s.setProgress id .executed with table := s.table.execute statement }
  | answers {id : ℕ} {command : Command} (htask : s.tasks[id]? = some ⟨command, .executed⟩) :
      Steps config durable s (.answers id) (s.answer id command)
  | fails {id : ℕ} {command : Command} {statement : Statement Vector}
      (htask : s.tasks[id]? = some ⟨command, .sent statement⟩) :
      Steps config durable s (.fails id) { s.setProgress id .ended with degraded := true }
  | endsJob {id : ℕ} {entry : Entry} {fingerprint : String}
      (hjob : s.jobs[id]? = some ⟨entry, fingerprint, true⟩) :
      Steps config durable s (.embeds id none) (s.endJob id)
  | embeds {id : ℕ} {entry : Entry} {fingerprint : String} {vector : Vector}
      (hjob : s.jobs[id]? = some ⟨entry, fingerprint, true⟩) :
      Steps config durable s (.embeds id (some vector))
        ((s.embed ⟨entry, fingerprint, true⟩ vector).endJob id)
  | waits (ms : ℕ) : Steps config durable s (.wait ms) { s with now := s.now + ms }
  | restarts :
      Steps config durable s .restart { System.init s.table durable with now := s.now }

/-- A step that is taken found its guard. -/
theorem steps_of_step {config : Config} {durable : Bool} {s s' : System Vector}
    {action : Action Vector} (hstep : step config durable s action = some s') :
    Steps config durable s action s' := by
  cases action with
  | upsert resource source =>
      cases hstep
      exact .upserts resource source
  | delete url toolName =>
      cases hstep
      exact .deletes url toolName
  | prune =>
      cases hstep
      exact .prunes
  | imports =>
      simp only [step] at hstep
      split at hstep
      · next hboot =>
          cases hstep
          exact .imports hboot
      · cases hstep
  | importFails =>
      simp only [step] at hstep
      split at hstep
      · next hboot =>
          cases hstep
          exact .importFails hboot
      · cases hstep
  | selects order =>
      simp only [step] at hstep
      split at hstep
      · next hboot =>
          split at hstep
          · next hperm =>
              cases hstep
              exact .selects hboot hperm
          · cases hstep
      · cases hstep
  | selectFails =>
      simp only [step] at hstep
      split at hstep
      · next hboot =>
          cases hstep
          exact .selectFails hboot
      · cases hstep
  | hydrates =>
      simp only [step] at hstep
      split at hstep
      · next hboot =>
          cases hstep
          exact .hydrates hboot
      · cases hstep
  | sends id =>
      simp only [step] at hstep
      split at hstep
      · next hboot htask =>
          cases hstep
          exact .sends hboot htask
      · cases hstep
  | executes id =>
      simp only [step] at hstep
      split at hstep
      · next htask =>
          cases hstep
          exact .executes htask
      · cases hstep
  | answers id =>
      simp only [step] at hstep
      split at hstep
      · next htask =>
          cases hstep
          exact .answers htask
      · cases hstep
  | fails id =>
      simp only [step] at hstep
      split at hstep
      · next htask =>
          cases hstep
          exact .fails htask
      · cases hstep
  | embeds id vector =>
      simp only [step] at hstep
      split at hstep
      · next hjob =>
          cases vector with
          | none =>
              cases hstep
              exact .endsJob hjob
          | some vector =>
              cases hstep
              exact .embeds hjob
      · cases hstep
  | wait ms =>
      cases hstep
      exact .waits ms
  | restart =>
      cases hstep
      exact .restarts

end X402Facilitator.Catalog
