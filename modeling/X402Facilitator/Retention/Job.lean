import X402Facilitator.Library.Execution
import Mathlib.Data.Int.Notation

/-!
# The retention job

The job goes through seven tables.  Of each it selects the expired rows in batches, hands
them to the archive and deletes as many.  The archive is a stream that reaches its file in
its own time, or a buffer that is put to S3 at the end.
-/

namespace X402Facilitator.Retention

open Execution

inductive Column where
  | time (value : ℤ)
  | text (value : String)
  | number (value : ℤ)
  | json (value : String)
  | null
  deriving DecidableEq

/-- `ctid` is the place of a row, which is no column of it. -/
structure Row where
  ctid : ℕ
  columns : List (String × Column)
  deriving DecidableEq

/-- `name < $1` -/
def Row.before (name : String) (cutoff : ℤ) (row : Row) : Bool :=
  match row.columns.lookup name with
  | some (.time value) => value < cutoff
  | _ => false

/-- `name IN (values)` -/
def Row.isOneOf (name : String) (values : List String) (row : Row) : Bool :=
  match row.columns.lookup name with
  | some (.text value) => value ∈ values
  | _ => false

/-- What `runBatchDelete` is given: the table and its expired rows. -/
structure Purge where
  table : String
  expired : Row → Bool

def purgeSettlementEvents (cutoff : ℤ) : Purge :=
  ⟨"settlement_events", Row.before "recorded_at" cutoff⟩

def purgeSettlementProjections (cutoff : ℤ) : Purge :=
  ⟨"settlement_projections", Row.before "updated_at" cutoff⟩

def purgeLegacySettlements (cutoff : ℤ) : Purge :=
  ⟨"settlements", Row.before "updated_at" cutoff⟩

def purgeIdempotencyKeys (cutoff : ℤ) : Purge :=
  ⟨"idempotency_keys", Row.before "created_at" cutoff⟩

def purgeOutboxEvents (cutoff : ℤ) : Purge :=
  ⟨"outbox_events", fun row =>
    row.before "created_at" cutoff && row.isOneOf "status" ["published"]⟩

def purgeDeadLetters (cutoff : ℤ) : Purge :=
  ⟨"dead_letters", fun row =>
    row.before "first_failed_at" cutoff && row.isOneOf "status" ["resolved", "discarded"]⟩

def purgeRateLimitBuckets (cutoff : ℤ) : Purge :=
  ⟨"rate_limit_buckets", Row.before "reset_at" cutoff⟩

structure Task where
  name : String
  purge : Purge

/-- `RETENTION_DAYS`, in milliseconds. -/
def settlementRetention : ℤ := 90 * 24 * 60 * 60 * 1000

def requestRetention : ℤ := 7 * 24 * 60 * 60 * 1000

def tasks (now : ℤ) : List Task :=
  let settlementCutoff := now - settlementRetention
  let requestCutoff := now - requestRetention
  [⟨"settlement_events", purgeSettlementEvents settlementCutoff⟩,
    ⟨"settlement_projections", purgeSettlementProjections settlementCutoff⟩,
    ⟨"settlements (legacy)", purgeLegacySettlements settlementCutoff⟩,
    ⟨"idempotency_keys", purgeIdempotencyKeys requestCutoff⟩,
    ⟨"outbox_events (published)", purgeOutboxEvents settlementCutoff⟩,
    ⟨"dead_letters (resolved/discarded)", purgeDeadLetters settlementCutoff⟩,
    ⟨"rate_limit_buckets (expired)", purgeRateLimitBuckets requestCutoff⟩]

inductive ArchiveType where
  | file
  | s3
  deriving DecidableEq

/-- A line of the archive: `{ table, ...row }`. -/
structure Record where
  table : String
  columns : List (String × Column)
  deriving DecidableEq

def Purge.record (purge : Purge) (row : Row) : Record := ⟨purge.table, row.columns⟩

/-- What has been handed to the stream or the buffer, and what has reached its end. -/
structure Archiver where
  opened : Bool
  buffered : List Record
  durable : List Record

namespace Archiver

def write (archiver : Archiver) (records : List Record) : Archiver :=
  { archiver with buffered := archiver.buffered ++ records }

def flush (archiver : Archiver) (count : ℕ) : Archiver :=
  { archiver with
    buffered := archiver.buffered.drop count
    durable := archiver.durable ++ archiver.buffered.take count }

/-- `close`.  The S3 client is a promise, which has no `send`; an empty buffer is not put. -/
def close (archiver : Archiver) : ArchiveType → Option String → Archiver
  | .file, none => archiver.flush archiver.buffered.length
  | .file, some _ => archiver
  | .s3, _ => archiver

end Archiver

structure Options where
  batchSize : ℕ
  dryRun : Bool
  archiveType : ArchiveType

/-- The table in hand, the tables after it, and its two counts. -/
structure Progress where
  task : Task
  rest : List Task
  deleted : ℕ
  archived : ℕ

inductive Phase where
  | starting (tasks : List Task)
  | selecting (progress : Progress)
  | deleting (progress : Progress) (rows : List Row)
  | sleeping (progress : Progress)
  | ended

structure TableReport where
  name : String
  deleted : ℕ
  archived : ℕ

/-- `deleted` is the log of all rows that the job has deleted. -/
structure Job where
  database : String → List Row
  archiver : Archiver
  phase : Phase
  report : List TableReport
  errors : List String
  deleted : List Record

/-- `change` is what others do to a table.  A statement that fails may have been carried
out; a crash is any end of the process, that of an error of the stream among them. -/
inductive Action where
  | change (table : String) (rows : List Row)
  | flush (count : ℕ)
  | start (error : Option String)
  | select (result : Except String (List Row))
  | delete (picked : List Row) (error : Option String)
  | wake
  | close (error : Option String)
  | crash

/-- The rows that `LIMIT` without an order may choose. -/
def Picks (limit : ℕ) (rows picked : List Row) : Prop :=
  picked.Nodup ∧ (∀ row ∈ picked, row ∈ rows) ∧ picked.length = min limit rows.length

instance (limit : ℕ) (rows picked : List Row) : Decidable (Picks limit rows picked) :=
  inferInstanceAs (Decidable (_ ∧ _ ∧ _))

namespace Job

def init (now : ℤ) (database : String → List Row) : Job where
  database := database
  archiver := ⟨false, [], []⟩
  phase := .starting (tasks now)
  report := []
  errors := []
  deleted := []

def expired (s : Job) (purge : Purge) : List Row :=
  (s.database purge.table).filter purge.expired

/-- The error of a table, after which the next one comes. -/
def fail (s : Job) (task : Task) (rest : List Task) (message : String) : Job :=
  { s with phase := .starting rest, errors := s.errors ++ [task.name ++ ": " ++ message] }

def finish (s : Job) (progress : Progress) : Job :=
  { s with
    phase := .starting progress.rest
    report := s.report ++ [⟨progress.task.name, progress.deleted, progress.archived⟩] }

/-- The end of a batch: the last one is smaller than it may be. -/
def endBatch (s : Job) (options : Options) (progress : Progress) (rows : List Row) : Job :=
  if rows.length < options.batchSize then s.finish progress
  else { s with phase := .sleeping progress }

def archive (s : Job) (options : Options) (progress : Progress) (rows : List Row) : Job :=
  let progress := { progress with archived := progress.archived + rows.length }
  let archived :=
    { s with archiver := s.archiver.write (rows.map progress.task.purge.record) }
  if options.dryRun then
    archived.endBatch options { progress with deleted := progress.deleted + rows.length } rows
  else { archived with phase := .deleting progress rows }

def remove (s : Job) (purge : Purge) (picked : List Row) : Job :=
  { s with
    database := Function.update s.database purge.table
      ((s.database purge.table).filter (· ∉ picked))
    deleted := s.deleted ++ picked.map purge.record }

end Job

def step (options : Options) (s : Job) : Action → Option Job
  | .change table rows => some { s with database := Function.update s.database table rows }
  | .flush count =>
      match s.phase, options.archiveType with
      | .ended, _ | _, .s3 => none
      | _, .file => some { s with archiver := s.archiver.flush count }
  | .start error =>
      match s.phase with
      | .starting (task :: rest) =>
          match s.archiver.opened, error with
          | true, some _ => none
          | false, some message => some (s.fail task rest message)
          | _, none => some { s with
              archiver := { s.archiver with opened := true }
              phase := .selecting ⟨task, rest, 0, 0⟩ }
      | _ => none
  | .select result =>
      match s.phase, result with
      | .selecting progress, .error message => some (s.fail progress.task progress.rest message)
      | .selecting progress, .ok rows =>
          if Picks options.batchSize (s.expired progress.task.purge) rows then
            if rows = [] then some (s.finish progress)
            else some (s.archive options progress rows)
          else none
      | _, _ => none
  | .delete picked error =>
      match s.phase, error with
      | .deleting progress rows, none =>
          if Picks options.batchSize (s.expired progress.task.purge) picked then
            some ((s.remove progress.task.purge picked).endBatch options
              { progress with deleted := progress.deleted + picked.length } rows)
          else none
      | .deleting progress _, some message =>
          if picked = [] ∨ Picks options.batchSize (s.expired progress.task.purge) picked then
            some ((s.remove progress.task.purge picked).fail progress.task progress.rest message)
          else none
      | _, _ => none
  | .wake =>
      match s.phase with
      | .sleeping progress => some { s with phase := .selecting progress }
      | _ => none
  | .close error =>
      match s.phase with
      | .starting [] => some { s with
          archiver := s.archiver.close options.archiveType error
          phase := .ended }
      | _ => none
  | .crash =>
      match s.phase with
      | .ended => none
      | _ => some { s with phase := .ended }

inductive Steps (options : Options) (s : Job) : Action → Job → Prop where
  | change (table : String) (rows : List Row) : Steps options s (.change table rows)
      { s with database := Function.update s.database table rows }
  | flush (count : ℕ) (hfile : options.archiveType = .file) : Steps options s (.flush count)
      { s with archiver := s.archiver.flush count }
  | openFails (task : Task) (rest : List Task) (message : String)
      (hphase : s.phase = .starting (task :: rest)) :
      Steps options s (.start (some message)) (s.fail task rest message)
  | start (task : Task) (rest : List Task) (hphase : s.phase = .starting (task :: rest)) :
      Steps options s (.start none) { s with
        archiver := { s.archiver with opened := true }
        phase := .selecting ⟨task, rest, 0, 0⟩ }
  | selectFails (progress : Progress) (message : String) (hphase : s.phase = .selecting progress) :
      Steps options s (.select (.error message)) (s.fail progress.task progress.rest message)
  | none (progress : Progress) (hphase : s.phase = .selecting progress)
      (hpicks : Picks options.batchSize (s.expired progress.task.purge) []) :
      Steps options s (.select (.ok [])) (s.finish progress)
  | select (progress : Progress) (rows : List Row) (hphase : s.phase = .selecting progress)
      (hpicks : Picks options.batchSize (s.expired progress.task.purge) rows) (hrows : rows ≠ []) :
      Steps options s (.select (.ok rows)) (s.archive options progress rows)
  | delete (progress : Progress) (rows picked : List Row)
      (hphase : s.phase = .deleting progress rows)
      (hpicks : Picks options.batchSize (s.expired progress.task.purge) picked) :
      Steps options s (.delete picked none)
        ((s.remove progress.task.purge picked).endBatch options
          { progress with deleted := progress.deleted + picked.length } rows)
  | deleteFails (progress : Progress) (rows picked : List Row) (message : String)
      (hphase : s.phase = .deleting progress rows)
      (hpicks : picked = [] ∨ Picks options.batchSize (s.expired progress.task.purge) picked) :
      Steps options s (.delete picked (some message))
        ((s.remove progress.task.purge picked).fail progress.task progress.rest message)
  | wake (progress : Progress) (hphase : s.phase = .sleeping progress) :
      Steps options s .wake { s with phase := .selecting progress }
  | close (error : Option String) (hphase : s.phase = .starting []) :
      Steps options s (.close error) { s with
        archiver := s.archiver.close options.archiveType error
        phase := .ended }
  | crash : Steps options s .crash { s with phase := .ended }

variable {options : Options} {s s' : Job} {action : Action}

theorem steps_of_step (hstep : step options s action = some s') : Steps options s action s' := by
  cases action with
  | change table rows =>
      cases hstep
      exact .change table rows
  | flush count =>
      simp only [step] at hstep
      split at hstep
      · cases hstep
      · cases hstep
      · next hfile _ =>
          cases hstep
          exact .flush count hfile
  | start error =>
      simp only [step] at hstep
      split at hstep
      · next task rest hphase =>
          split at hstep
          · cases hstep
          · cases hstep
            exact .openFails task rest _ hphase
          · cases hstep
            exact .start task rest hphase
      · cases hstep
  | select result =>
      simp only [step] at hstep
      split at hstep
      · next progress message hphase =>
          cases hstep
          exact .selectFails progress message hphase
      · next progress rows hphase =>
          obtain ⟨hpicks, hbatch⟩ := Option.ite_none_right_eq_some.mp hstep
          split at hbatch
          · next hnone =>
              cases hbatch
              subst hnone
              exact .none progress hphase hpicks
          · next hrows =>
              cases hbatch
              exact .select progress rows hphase hpicks hrows
      · cases hstep
  | delete picked error =>
      simp only [step] at hstep
      split at hstep
      · next progress rows hphase =>
          obtain ⟨hpicks, hsame⟩ := Option.ite_none_right_eq_some.mp hstep
          cases hsame
          exact .delete progress rows picked hphase hpicks
      · next progress rows message hphase =>
          obtain ⟨hpicks, hsame⟩ := Option.ite_none_right_eq_some.mp hstep
          cases hsame
          exact .deleteFails progress rows picked message hphase hpicks
      · cases hstep
  | wake =>
      simp only [step] at hstep
      split at hstep
      · next progress hphase =>
          cases hstep
          exact .wake progress hphase
      · cases hstep
  | close error =>
      simp only [step] at hstep
      split at hstep
      · next hphase =>
          cases hstep
          exact .close error hphase
      · cases hstep
  | crash =>
      simp only [step] at hstep
      split at hstep
      · cases hstep
      · cases hstep
        exact .crash

end X402Facilitator.Retention
