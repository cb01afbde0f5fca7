import Mathlib.Data.PNat.Defs
import Mathlib.Data.List.Perm.Subperm
import X402Facilitator.Library.Eviction
import X402Facilitator.Retention.Job
import X402Facilitator.Store.AppendStatements

/-!
# The retention job on the settlement tables

The store appends events and writes rows, while the job removes old events by the time of
their recording and old rows by the time of their last update.
-/

namespace X402Facilitator.Retention

def Phase.pending : Phase → List Task
  | .starting tasks => tasks
  | .selecting progress | .deleting progress _ | .sleeping progress =>
      progress.task :: progress.rest
  | .ended => []

/-- The archive opens, the queries succeed and the process does not end on the way. -/
def Action.succeeds : Action → Bool
  | .start error | .delete _ error => error.isNone
  | .select result => result.isOk
  | .crash => false
  | _ => true

namespace Settlements

open Execution

/-- An event row, with its key and the column that the job reads.  The cutoff is a whole
millisecond, so it does not matter that the microseconds are cut off.  Its key tells a row
from all others, its place being left out. -/
def eventRow (row : EventRow) : Row :=
  ⟨0, [("idempotency_key", .text row.idempotencyKey), ("seq", .number row.event.seq),
    ("recorded_at", .time (toMillis row.event.recordedAt))]⟩

def projectionRow (row : ProjectionRow) : Row :=
  ⟨0, [("idempotency_key", .text row.columns.idempotencyKey),
    ("updated_at", .time (toMillis row.columns.updatedAt))]⟩

def tables (db : Database) (table : String) : List Row :=
  if table = "settlement_events" then db.events.map eventRow
  else if table = "settlement_projections" then
    db.projections.entries.map fun entry => projectionRow entry.2
  else []

/-- What the store still has after the job has deleted rows. -/
def keep (db : Database) (tables : String → List Row) : Database :=
  { db with
    events := db.events.filter fun row => eventRow row ∈ tables "settlement_events"
    projections := db.projections.filter fun row =>
      projectionRow row ∈ tables "settlement_projections" }

def expired (db : Database) (purge : Purge) : List Row :=
  (tables db purge.table).filter purge.expired

/-- The tables, when the last run of the job started, and that run. -/
structure System where
  database : Database
  startedAt : ℤ
  job : Job

def System.init : System :=
  ⟨.empty, 0, { Job.init 0 fun _ => [] with phase := .ended }⟩

def System.cutoff (s : System) : ℤ := s.startedAt - settlementRetention

inductive Action where
  | operate (operation : AppendOperation) (databaseNow : ℕ)
  | start (now : ℤ)
  | job (action : Retention.Action)

/-- A store operation whose statement fails leaves the tables as they are.  Nobody else
changes the tables, and one run of the job follows another. -/
def step (options : Options) (s : System) : Action → Option System
  | .operate operation databaseNow =>
      (operation.statementAt s.database (s.database.maxSeq operation.key + 1) databaseNow).map
        fun result => { s with database := result.1 }
  | .start now =>
      match s.job.phase with
      | .ended => some { s with startedAt := now, job := .init now (tables s.database) }
      | _ => none
  | .job (.change _ _) => none
  | .job action =>
      (Retention.step options { s.job with database := tables s.database } action).map
        fun job => { s with database := keep s.database job.database, job := job }

def Before (cutoff : ℤ) (time : ℕ) : Prop := (toMillis time : ℤ) < cutoff

instance (cutoff : ℤ) (time : ℕ) : Decidable (Before cutoff time) :=
  inferInstanceAs (Decidable (_ < _))

/-- A run with `--apply`, whose batch size has been checked. -/
def apply (batchSize : ℕ+) (archiveType : ArchiveType) : Options := ⟨batchSize, false, archiveType⟩

variable {db : Database} {cutoff : ℤ}

@[simp]
theorem expired_eventRow (row : EventRow) :
    (purgeSettlementEvents cutoff).expired (eventRow row) =
      decide (Before cutoff row.event.recordedAt) := by
  rfl

@[simp]
theorem expired_projectionRow (row : ProjectionRow) :
    (purgeSettlementProjections cutoff).expired (projectionRow row) =
      decide (Before cutoff row.columns.updatedAt) := by
  rfl

theorem tables_events (db : Database) :
    tables db "settlement_events" = db.events.map eventRow := if_pos rfl

theorem tables_projections (db : Database) :
    tables db "settlement_projections" =
      db.projections.entries.map fun entry => projectionRow entry.2 := by
  rw [tables, if_neg (by decide), if_pos rfl]

theorem expired_of_table_ne {purge : Purge} (hevents : purge.table ≠ "settlement_events")
    (hprojections : purge.table ≠ "settlement_projections") : expired db purge = [] := by
  rw [expired, tables, if_neg hevents, if_neg hprojections, List.filter_nil]

theorem mem_log {key : String} {event : SettlementEvent ℕ} :
    event ∈ db.log key ↔ ⟨key, event⟩ ∈ db.events := by
  rw [Database.log, List.mem_map]
  constructor
  · rintro ⟨row, hrow, rfl⟩
    obtain ⟨hmem, hkey⟩ := List.mem_filter.mp hrow
    obtain rfl := of_decide_eq_true hkey
    exact hmem
  · intro hmem
    exact ⟨⟨key, event⟩, List.mem_filter.mpr ⟨hmem, decide_eq_true rfl⟩, rfl⟩

/-- No event is expired. -/
theorem expired_events_eq_nil :
    expired db (purgeSettlementEvents cutoff) = [] ↔
      ∀ key, ∀ event ∈ db.log key, ¬ Before cutoff event.recordedAt := by
  rw [expired, List.filter_eq_nil_iff]
  change (∀ row ∈ tables db "settlement_events", _) ↔ _
  rw [tables_events, List.forall_mem_map]
  simp only [expired_eventRow, decide_eq_true_eq]
  constructor
  · intro hrows key event hevent
    exact hrows ⟨key, event⟩ (mem_log.mp hevent)
  · intro hlogs row hrow
    exact hlogs row.idempotencyKey row.event (mem_log.mpr hrow)

/-- No row is expired. -/
theorem not_before_of_expired_projections_eq_nil
    (hnone : expired db (purgeSettlementProjections cutoff) = []) {key : String}
    {row : ProjectionRow} (hrow : db.projections.get key = some row) :
    ¬ Before cutoff row.columns.updatedAt := by
  rw [expired, List.filter_eq_nil_iff] at hnone
  change ∀ row ∈ tables db "settlement_projections", _ at hnone
  rw [tables_projections, List.forall_mem_map] at hnone
  have hkept := hnone _ (InsertionMap.mem_of_lookup hrow)
  rwa [expired_projectionRow, decide_eq_true_eq] at hkept

theorem keep_tables (db : Database) : keep db (tables db) = db := by
  have hevents : (db.events.filter fun row => eventRow row ∈ tables db "settlement_events") =
      db.events := by
    rw [tables_events, List.filter_eq_self]
    intro row hrow
    exact decide_eq_true (List.mem_map_of_mem hrow)
  have hprojections : (db.projections.entries.filter fun entry =>
      projectionRow entry.2 ∈ tables db "settlement_projections") = db.projections.entries := by
    rw [tables_projections, List.filter_eq_self]
    intro entry hentry
    exact decide_eq_true (List.mem_map_of_mem (f := fun entry => projectionRow entry.2) hentry)
  obtain ⟨events, ⟨entries, hnodup⟩, outbox⟩ := db
  simp only [keep, InsertionMap.filter] at hevents hprojections ⊢
  simp only [hevents, hprojections]

def remove (db : Database) (purge : Purge) (picked : List Row) : Database :=
  keep db (Function.update (tables db) purge.table
    ((tables db purge.table).filter (· ∉ picked)))

variable {purge : Purge} {picked : List Row}

theorem remove_events (htable : purge.table = "settlement_events") :
    remove db purge picked =
      { db with events := db.events.filter fun row => eventRow row ∉ picked } := by
  have hevents : (remove db purge picked).events =
      db.events.filter fun row => eventRow row ∉ picked := by
    apply List.filter_congr
    intro row hrow
    rw [htable, Function.update_self, tables_events]
    simp [List.mem_map_of_mem hrow]
  have hprojections : (remove db purge picked).projections = (keep db (tables db)).projections := by
    simp only [remove, keep]
    rw [htable, Function.update_of_ne (by decide)]
  rw [keep_tables] at hprojections
  rw [← hevents]
  exact congrArg (fun projections => { db with
    events := (remove db purge picked).events, projections := projections }) hprojections

theorem remove_projections (htable : purge.table = "settlement_projections") :
    remove db purge picked =
      { db with projections := db.projections.filter fun row => projectionRow row ∉ picked } := by
  have hevents : (remove db purge picked).events = (keep db (tables db)).events := by
    simp only [remove, keep]
    rw [htable, Function.update_of_ne (by decide)]
  have hprojections : (remove db purge picked).projections =
      db.projections.filter fun row => projectionRow row ∉ picked := by
    simp only [remove, keep, InsertionMap.filter, InsertionMap.mk.injEq]
    apply List.filter_congr
    intro entry hentry
    rw [htable, Function.update_self, tables_projections]
    simp [List.mem_map_of_mem (f := fun entry => projectionRow entry.2) hentry]
  rw [keep_tables] at hevents
  rw [← hprojections]
  exact congrArg (fun events => { db with
    events := events, projections := (remove db purge picked).projections }) hevents

theorem remove_of_table_ne (hevents : purge.table ≠ "settlement_events")
    (hprojections : purge.table ≠ "settlement_projections") : remove db purge picked = db := by
  rw [remove]
  conv_rhs => rw [← keep_tables db]
  simp only [keep]
  rw [Function.update_of_ne (Ne.symm hevents), Function.update_of_ne (Ne.symm hprojections)]

/-- The table itself loses the picked rows. -/
theorem tables_remove :
    tables (remove db purge picked) purge.table =
      (tables db purge.table).filter (· ∉ picked) := by
  by_cases hevents : purge.table = "settlement_events"
  · rw [remove_events hevents, hevents, tables_events, tables_events, List.filter_map]
    rfl
  · by_cases hprojections : purge.table = "settlement_projections"
    · rw [remove_projections hprojections, hprojections, tables_projections, tables_projections,
        List.filter_map]
      rfl
    · rw [remove_of_table_ne hevents hprojections, tables, if_neg hevents, if_neg hprojections,
        List.filter_nil]

/-- A batch that reaches to the last expired row leaves none. -/
theorem expired_remove_eq_nil {limit : ℕ} (hpicks : Picks limit (expired db purge) picked)
    (hlast : (expired db purge).length ≤ limit) :
    expired (remove db purge picked) purge = [] := by
  obtain ⟨hnodup, hsubset, hlength⟩ := hpicks
  have hperm : picked.Perm (expired db purge) := by
    apply (List.subperm_of_subset hnodup hsubset).perm_of_length_le
    rw [hlength, Nat.min_eq_right hlast]
  rw [expired, tables_remove, List.filter_filter, List.filter_eq_nil_iff]
  intro row hrow hexpired
  simp only [Bool.and_eq_true, decide_eq_true_eq] at hexpired
  apply hexpired.2
  exact hperm.mem_iff.mpr (List.mem_filter.mpr ⟨hrow, hexpired.1⟩)

end Settlements

end X402Facilitator.Retention
