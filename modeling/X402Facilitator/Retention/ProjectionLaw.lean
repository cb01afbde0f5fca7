import X402Facilitator.Retention.Settlements
import X402Facilitator.Store.LiveRecord

/-!
# The projection law under retention

An event expires by the time of its recording and a row by that of its last update.  Where
the cutoff falls between the events of a key, the row stays with the later ones only.  The
law is kept by the runs in which the cutoff divides no key.
-/

namespace X402Facilitator.Retention

namespace Settlements

open Execution
open Database

/-- Each row that is there is the fold of the events that are there; a rebuild returns it,
its version is the number of the last event, and a key without a row has no event. -/
structure ProjectionLaw (db : Database) : Prop where
  folds : ∀ key row, db.projections.get key = some row →
    projectSettlement (db.selectLog key) = some (mapProjectionRow row).columns
  rebuilt : ∀ key row, db.projections.get key = some row → ∀ memory,
    (PostgresSettlementStore.rebuildProjection ⟨db, memory, false⟩ key).2 =
      some (mapProjectionRow row).columns
  numbered : ∀ key row, db.projections.get key = some row →
    (db.selectLog key).map SettlementEvent.seq = List.range' 1 row.version
  next : ∀ key row, db.projections.get key = some row → db.maxSeq key = row.version
  purged : ∀ key, db.projections.get key = none → db.log key = []

/-- So it is wherever no run of the job is under way. -/
def KeepsLaw (meets : System → Action → Prop) (batchSize : ℕ+) (archiveType : ArchiveType) :
    Prop :=
  ∀ s, Reaches (step (apply batchSize archiveType)) meets .init s →
    s.job.phase.pending = [] → ProjectionLaw s.database

def Action.succeeds : Action → Bool
  | .job action => action.succeeds
  | _ => true

def JobSucceeds (_ : System) (action : Action) : Prop := action.succeeds = true

/-- The cutoff of a run divides no key, and until the rows have been purged no operation is
recorded before the cutoff or meets a row that is to be purged.  The response of an update
is null or truthy, without which no row is a fold. -/
def DividesNoKey (s : System) : Action → Prop
  | .operate operation databaseNow =>
      ((s.database.projections.get operation.key).isSome = true →
        Foldable operation.response) ∧
      ("settlement_projections" ∈ s.job.phase.pending.map Task.name →
        ¬ Before s.cutoff databaseNow ∧
        ∀ row, s.database.projections.get operation.key = some row →
          ¬ Before s.cutoff row.columns.updatedAt)
  | .start now => ∀ key row, s.database.projections.get key = some row →
      ∀ event ∈ s.database.log key,
        (Before (now - settlementRetention) event.recordedAt ↔
          Before (now - settlementRetention) row.columns.updatedAt)
  | .job action => action.succeeds = true

theorem ProjectionLaw.of_consistent {db : Database} (hdb : db.Consistent) : ProjectionLaw db := by
  have hfolded := (consistent_iff db).mp hdb
  refine ⟨?_, ?_, ?_, ?_, fun key => (hfolded key).present⟩
  · intro key row hrow
    rw [(hfolded key).projectSettlement_selectLog, hrow]
    rfl
  · intro key row hrow memory
    exact LiveRecord.rebuildProjection_of_folded (hfolded key) hrow memory
  · intro key row hrow
    exact (hfolded key).selectLog_seq hrow
  · intro key row hrow
    exact (hfolded key).maxSeq hrow

variable {db db' : Database} {cutoff startedAt : ℤ} {key : String} {picked : List Row}

inductive Whole (cutoff : ℤ) (db : Database) (key : String) : Prop where
  | old (row : ProjectionRow) (hrow : db.projections.get key = some row)
      (hbefore : Before cutoff row.columns.updatedAt)
      (hlog : ∀ event ∈ db.log key, Before cutoff event.recordedAt)
  | kept (hfolded : Folded key (db.log key) (db.projections.get key))
      (hlog : ∀ event ∈ db.log key, ¬ Before cutoff event.recordedAt)
      (hrow : ∀ row, db.projections.get key = some row → ¬ Before cutoff row.columns.updatedAt)

theorem Whole.congr (hwhole : Whole cutoff db key) (hlog : db'.log key = db.log key)
    (hget : db'.projections.get key = db.projections.get key) : Whole cutoff db' key := by
  cases hwhole with
  | old row hrow hbefore hevents => exact .old row (hget ▸ hrow) hbefore (hlog ▸ hevents)
  | kept hfolded hevents hrow =>
      apply Whole.kept
      · rw [hlog, hget]
        exact hfolded
      · rw [hlog]
        exact hevents
      · rw [hget]
        exact hrow

/-- An undivided key when the job starts. -/
theorem whole_of_consistent (hdb : db.Consistent)
    (hundivided : ∀ row, db.projections.get key = some row → ∀ event ∈ db.log key,
      (Before cutoff event.recordedAt ↔ Before cutoff row.columns.updatedAt)) :
    Whole cutoff db key := by
  have hfolded := (consistent_iff db).mp hdb key
  cases hrow : db.projections.get key with
  | none =>
      have hnil := hfolded.present hrow
      apply Whole.kept hfolded
      · rw [hnil]
        exact fun _ hevent => by cases hevent
      · rw [hrow]
        exact fun _ hnone => by cases hnone
  | some row =>
      by_cases hbefore : Before cutoff row.columns.updatedAt
      · exact .old row hrow hbefore fun event hevent =>
          (hundivided row hrow event hevent).mpr hbefore
      · apply Whole.kept hfolded
        · exact fun event hevent hold => hbefore ((hundivided row hrow event hevent).mp hold)
        · rw [hrow]
          rintro _ ⟨⟩
          exact hbefore

/-- An operation in the meantime, on a key that stays. -/
theorem whole_writes {operation : AppendOperation} {now : ℕ} (hwhole : ∀ key, Whole cutoff db key)
    (hresponse : (db.projections.get operation.key).isSome = true → Foldable operation.response)
    (hnow : ¬ Before cutoff now)
    (hrow : ∀ row, db.projections.get operation.key = some row →
      ¬ Before cutoff row.columns.updatedAt) (key : String) :
    Whole cutoff (operation.writes db (db.maxSeq operation.key + 1) now).1 key := by
  by_cases hkey : key = operation.key
  · subst hkey
    cases hwhole operation.key with
    | old row hold hbefore => exact absurd hbefore (hrow row hold)
    | kept hfolded hlog =>
        apply Whole.kept (hfolded.writes hresponse now)
        · rw [AppendOperation.writes]
          split
          · exact hlog
          · intro event hevent
            rw [AppendOperation.log_append, if_pos rfl] at hevent
            rcases List.mem_append.mp hevent with hold | hnew
            · exact hlog event hold
            · obtain rfl := List.mem_singleton.mp hnew
              rwa [AppendOperation.event_recordedAt]
        · rw [AppendOperation.writes]
          split
          · exact hrow
          · next row hnew =>
              intro found hfound
              rw [AppendOperation.projections_append, if_pos rfl] at hfound
              cases hfound
              rwa [AppendOperation.updatedAt_rowOver hnew]
  · obtain ⟨hlog, hget⟩ := writes_of_ne db (db.maxSeq operation.key + 1) now hkey
    exact (hwhole key).congr hlog hget

/-- A batch of expired events is deleted. -/
theorem Whole.remove_events (hwhole : Whole cutoff db key)
    (hpicked : ∀ row ∈ picked, row ∈ expired db (purgeSettlementEvents cutoff)) :
    Whole cutoff (remove db (purgeSettlementEvents cutoff) picked) key := by
  rw [Settlements.remove_events rfl]
  cases hwhole with
  | old row hrow hbefore hlog =>
      refine .old row hrow hbefore fun event hevent => hlog event ?_
      rw [mem_log] at hevent ⊢
      exact List.mem_of_mem_filter hevent
  | kept hfolded hlog hrow =>
      refine (Whole.kept hfolded hlog hrow).congr ?_ rfl
      rw [Database.log, Database.log, List.filter_filter]
      apply congrArg (List.map EventRow.event)
      apply List.filter_congr
      intro row hmem
      by_cases hkey : row.idempotencyKey = key
      · have hstays : eventRow row ∉ picked := by
          intro hrowPicked
          have hexpired := (List.mem_filter.mp (hpicked _ hrowPicked)).2
          rw [expired_eventRow, decide_eq_true_eq] at hexpired
          refine hlog row.event (mem_log.mpr ?_) hexpired
          rw [← hkey]
          exact hmem
        simp [hkey, hstays]
      · simp [hkey]

/-- A batch of expired rows is deleted, their events being gone. -/
theorem Whole.remove_projections (hwhole : Whole cutoff db key)
    (hgone : ∀ event ∈ db.log key, ¬ Before cutoff event.recordedAt)
    (hpicked : ∀ row ∈ picked, row ∈ expired db (purgeSettlementProjections cutoff)) :
    Whole cutoff (remove db (purgeSettlementProjections cutoff) picked) key := by
  have hget : (remove db (purgeSettlementProjections cutoff) picked).projections.get key =
      (db.projections.get key).filter fun row => projectionRow row ∉ picked := by
    rw [Settlements.remove_projections rfl]
    exact InsertionMap.get_filter _ _ key
  have hlogs : (remove db (purgeSettlementProjections cutoff) picked).log key = db.log key := by
    rw [Settlements.remove_projections rfl]
    rfl
  cases hwhole with
  | old row hrow hbefore hlog =>
      by_cases hrowPicked : projectionRow row ∈ picked
      · have hnone : (remove db (purgeSettlementProjections cutoff) picked).projections.get key =
            none := by
          rw [hget, hrow]
          exact Option.filter_some_neg (by simp [hrowPicked])
        have hnil : db.log key = [] := by
          apply List.eq_nil_iff_forall_not_mem.mpr
          exact fun event hevent => hgone event hevent (hlog event hevent)
        apply Whole.kept
        · rw [hnone, hlogs, hnil]
          exact Folded.nil key
        · rw [hlogs]
          exact hgone
        · rw [hnone]
          exact fun _ hfound => by cases hfound
      · refine (Whole.old row hrow hbefore hlog).congr hlogs ?_
        rw [hget, hrow]
        exact Option.filter_some_pos (by simp [hrowPicked])
  | kept hfolded hlog hrow =>
      refine (Whole.kept hfolded hlog hrow).congr hlogs ?_
      rw [hget]
      cases hfound : db.projections.get key with
      | none => rfl
      | some row =>
          have hstays : projectionRow row ∉ picked := by
            intro hrowPicked
            have hexpired := (List.mem_filter.mp (hpicked _ hrowPicked)).2
            rw [expired_projectionRow, decide_eq_true_eq] at hexpired
            exact hrow row hfound hexpired
          exact Option.filter_some_pos (by simp [hstays])

def Others (pending : List Task) : Prop :=
  ∀ task ∈ pending, task.purge.table ≠ "settlement_events" ∧
    task.purge.table ≠ "settlement_projections"

inductive Stage (db : Database) (startedAt : ℤ) (pending : List Task) : Prop where
  | events (hpending : pending = tasks startedAt)
      (hwhole : ∀ key, Whole (startedAt - settlementRetention) db key)
  | projections (hpending : pending = (tasks startedAt).tail)
      (hwhole : ∀ key, Whole (startedAt - settlementRetention) db key)
      (hgone : expired db (purgeSettlementEvents (startedAt - settlementRetention)) = [])
  | others (hothers : Others pending) (hdb : db.Consistent)

theorem tasks_eq (now : ℤ) :
    tasks now = ⟨"settlement_events", purgeSettlementEvents (now - settlementRetention)⟩ ::
      ⟨"settlement_projections", purgeSettlementProjections (now - settlementRetention)⟩ ::
        (tasks now).tail.tail := rfl

theorem others_tasks (now : ℤ) : Others (tasks now).tail.tail := by
  simp [Others, tasks, purgeLegacySettlements, purgeIdempotencyKeys, purgeOutboxEvents,
    purgeDeadLetters, purgeRateLimitBuckets]

variable {task : Task} {rest pending : List Task}

theorem Stage.remove (hstage : Stage db startedAt (task :: rest))
    (hpicked : ∀ row ∈ picked, row ∈ expired db task.purge) :
    Stage (remove db task.purge picked) startedAt (task :: rest) := by
  cases hstage with
  | events hpending hwhole =>
      obtain ⟨rfl, -⟩ := List.cons.inj (hpending.trans (tasks_eq startedAt))
      exact .events hpending fun key => (hwhole key).remove_events hpicked
  | projections hpending hwhole hgone =>
      obtain ⟨rfl, -⟩ := List.cons.inj (hpending.trans (congrArg List.tail (tasks_eq startedAt)))
      have hlogs := expired_events_eq_nil.mp hgone
      refine .projections hpending
        (fun key => (hwhole key).remove_projections (hlogs key) hpicked) ?_
      rw [expired_events_eq_nil, Settlements.remove_projections rfl]
      exact hlogs
  | others hothers hdb =>
      obtain ⟨hevents, hprojections⟩ := hothers task List.mem_cons_self
      rw [remove_of_table_ne hevents hprojections]
      exact .others hothers hdb

/-- A table is done once it has no expired row. -/
theorem Stage.finish (hstage : Stage db startedAt (task :: rest))
    (hnone : expired db task.purge = []) : Stage db startedAt rest := by
  cases hstage with
  | events hpending hwhole =>
      obtain ⟨rfl, rfl⟩ := List.cons.inj (hpending.trans (tasks_eq startedAt))
      exact .projections (congrArg List.tail (tasks_eq startedAt)).symm hwhole hnone
  | projections hpending hwhole hgone =>
      obtain ⟨rfl, rfl⟩ := List.cons.inj (hpending.trans (congrArg List.tail (tasks_eq startedAt)))
      refine .others (others_tasks startedAt) ((consistent_iff db).mpr fun key => ?_)
      cases hwhole key with
      | old row hrow hbefore =>
          exact absurd hbefore (not_before_of_expired_projections_eq_nil hnone hrow)
      | kept hfolded => exact hfolded
  | others hothers hdb =>
      exact .others (fun other hother => hothers other (List.mem_cons_of_mem task hother)) hdb

section Operations

variable {operation : AppendOperation} {seq now : ℕ}

/-- An operation leaves the expired events, and those of a key that stays the expired rows. -/
theorem expired_events_writes (hnow : ¬ Before cutoff now) :
    expired (operation.writes db seq now).1 (purgeSettlementEvents cutoff) =
      expired db (purgeSettlementEvents cutoff) := by
  rw [AppendOperation.writes]
  split
  · rfl
  · change (tables _ "settlement_events").filter _ = (tables _ "settlement_events").filter _
    rw [tables_events, tables_events, AppendOperation.append, List.map_append, List.filter_append,
      List.map_singleton, List.filter_singleton, expired_eventRow,
      AppendOperation.event_recordedAt]
    simp [hnow]

theorem expired_projections_writes (hnow : ¬ Before cutoff now)
    (hrow : ∀ row, db.projections.get operation.key = some row →
      ¬ Before cutoff row.columns.updatedAt) :
    expired (operation.writes db seq now).1 (purgeSettlementProjections cutoff) =
      expired db (purgeSettlementProjections cutoff) := by
  rw [AppendOperation.writes]
  split
  · rfl
  · next row hnew =>
      change (tables _ "settlement_projections").filter _ =
        (tables _ "settlement_projections").filter _
      rw [tables_projections, tables_projections, List.filter_map, List.filter_map]
      apply congrArg (List.map fun entry : String × ProjectionRow => projectionRow entry.2)
      refine InsertionMap.filter_setEntries
        (fun row => (purgeSettlementProjections cutoff).expired (projectionRow row)) ?_ ?_
      · rw [expired_projectionRow, AppendOperation.updatedAt_rowOver hnew]
        exact decide_eq_false hnow
      · intro found hfound
        rw [expired_projectionRow]
        exact decide_eq_false (hrow found hfound)

/-- Neither the stage nor the batches of the table in hand notice a permitted operation. -/
theorem Stage.writes (hstage : Stage db startedAt pending)
    (hresponse : (db.projections.get operation.key).isSome = true → Foldable operation.response)
    (hclean : "settlement_projections" ∈ pending.map Task.name →
      ¬ Before (startedAt - settlementRetention) now ∧
      ∀ row, db.projections.get operation.key = some row →
        ¬ Before (startedAt - settlementRetention) row.columns.updatedAt) :
    Stage (operation.writes db (db.maxSeq operation.key + 1) now).1 startedAt pending := by
  cases hstage with
  | events hpending hwhole =>
      subst hpending
      obtain ⟨hnow, hrow⟩ := hclean (by simp [tasks])
      exact .events rfl (whole_writes hwhole hresponse hnow hrow)
  | projections hpending hwhole hgone =>
      subst hpending
      obtain ⟨hnow, hrow⟩ := hclean (by simp [tasks])
      refine .projections rfl (whole_writes hwhole hresponse hnow hrow) ?_
      rw [expired_events_writes hnow]
      exact hgone
  | others hothers hdb => exact .others hothers (hdb.writes hresponse now)

theorem Stage.expired_writes (hstage : Stage db startedAt (task :: rest))
    (hclean : "settlement_projections" ∈ (task :: rest).map Task.name →
      ¬ Before (startedAt - settlementRetention) now ∧
      ∀ row, db.projections.get operation.key = some row →
        ¬ Before (startedAt - settlementRetention) row.columns.updatedAt) :
    expired (operation.writes db seq now).1 task.purge = expired db task.purge := by
  cases hstage with
  | events hpending =>
      rw [hpending] at hclean
      obtain ⟨rfl, -⟩ := List.cons.inj (hpending.trans (tasks_eq startedAt))
      exact expired_events_writes (hclean (by simp [tasks])).1
  | projections hpending =>
      rw [hpending] at hclean
      obtain ⟨rfl, -⟩ := List.cons.inj (hpending.trans (congrArg List.tail (tasks_eq startedAt)))
      obtain ⟨hnow, hrow⟩ := hclean (by simp [tasks])
      exact expired_projections_writes hnow hrow
  | others hothers =>
      obtain ⟨hevents, hprojections⟩ := hothers task List.mem_cons_self
      rw [expired_of_table_ne hevents hprojections, expired_of_table_ne hevents hprojections]

end Operations

structure Sound (batchSize : ℕ+) (s : System) : Prop where
  stage : Stage s.database s.startedAt s.job.phase.pending
  batch : ∀ progress rows, s.job.phase = .deleting progress rows →
    rows.length = min (batchSize : ℕ) (expired s.database progress.task.purge).length

variable {batchSize : ℕ+} {archiveType : ArchiveType} {s s' : System} {action : Action}

theorem Sound.init : Sound batchSize .init where
  stage := .others (fun _ htask => by cases htask) Consistent.empty
  batch := fun _ _ hphase => by cases hphase

/-- A statement of a run is one of the job alone, on the tables as they are. -/
theorem job_of_step {options : Options} {action : Retention.Action}
    (hstep : step options s (.job action) = some s') :
    ∃ job, Steps options { s.job with database := tables s.database } action job ∧
      s' = { s with database := keep s.database job.database, job := job } ∧
      ∀ table rows, action ≠ .change table rows := by
  have hmapped : (∀ table rows, action ≠ .change table rows) →
      step options s (.job action) =
        (Retention.step options { s.job with database := tables s.database } action).map
          fun job => { s with database := keep s.database job.database, job := job } := by
    intro hchange
    cases action with
    | change table rows => exact absurd rfl (hchange table rows)
    | _ => rfl
  by_cases hchange : ∀ table rows, action ≠ .change table rows
  · rw [hmapped hchange] at hstep
    obtain ⟨job, hjob, rfl⟩ := Option.map_eq_some_iff.mp hstep
    exact ⟨job, steps_of_step hjob, rfl, hchange⟩
  · push Not at hchange
    obtain ⟨table, rows, rfl⟩ := hchange
    cases hstep

theorem database_endBatch (job : Job) (options : Options) (progress : Progress)
    (rows : List Row) : (job.endBatch options progress rows).database = job.database := by
  rw [Job.endBatch]
  split <;> rfl

/-- Only a batch that has been selected is to be deleted. -/
theorem Sound.of_stage {job : Job}
    (hstage : Stage db startedAt job.phase.pending)
    (hphase : ∀ progress rows, job.phase ≠ .deleting progress rows) :
    Sound batchSize ⟨db, startedAt, job⟩ where
  stage := hstage
  batch := fun progress rows hdeleting => absurd hdeleting (hphase progress rows)

/-- The job goes on with the same table, and no row is deleted. -/
theorem Sound.advance (hs : Sound batchSize s) {job : Job}
    (htables : job.database = tables s.database)
    (hpending : job.phase.pending = s.job.phase.pending)
    (hphase : ∀ progress rows, job.phase ≠ .deleting progress rows) :
    Sound batchSize { s with database := keep s.database job.database, job := job } := by
  have hstage := hs.stage
  rw [← hpending] at hstage
  rw [htables, keep_tables]
  exact .of_stage hstage hphase

/-- The batch of a delete statement is done. -/
theorem Sound.delete (hs : Sound batchSize s) {progress : Progress} {rows picked : List Row}
    (hphase : s.job.phase = .deleting progress rows)
    (hpicks : Picks batchSize (expired s.database progress.task.purge) picked) {job : Job}
    {next : Progress} (htask : next.task = progress.task) (hrest : next.rest = progress.rest) :
    Sound batchSize ⟨remove s.database progress.task.purge picked, s.startedAt,
      job.endBatch (apply batchSize archiveType) next rows⟩ := by
  have hstage := hs.stage
  rw [hphase] at hstage
  have hremoved := hstage.remove hpicks.2.1
  rw [Job.endBatch]
  split
  · next hshort =>
      have hlength := hs.batch progress rows hphase
      have hlast : (expired s.database progress.task.purge).length ≤ batchSize := by
        change rows.length < batchSize at hshort
        omega
      have hfinished := hremoved.finish (expired_remove_eq_nil hpicks hlast)
      rw [← hrest] at hfinished
      exact Sound.of_stage hfinished fun _ _ hdeleting => by cases hdeleting
  · have hsleeping : Stage (remove s.database progress.task.purge picked) s.startedAt
        (next.task :: next.rest) := by
      rw [htask, hrest]
      exact hremoved
    exact Sound.of_stage hsleeping fun _ _ hdeleting => by cases hdeleting

theorem Sound.job {action : Retention.Action} (hs : Sound batchSize s)
    (hsucceeds : action.succeeds = true)
    (hstep : step (apply batchSize archiveType) s (.job action) = some s') :
    Sound batchSize s' := by
  obtain ⟨job, hsteps, rfl, hchange⟩ := job_of_step hstep
  have hstage := hs.stage
  cases hsteps with
  | change table rows => exact absurd rfl (hchange table rows)
  | flush count hfile =>
      rw [keep_tables]
      exact ⟨hstage, hs.batch⟩
  | openFails task rest message => cases hsucceeds
  | start task rest hphase =>
      apply hs.advance rfl
      · rw [hphase]
        rfl
      · exact fun _ _ hdeleting => by cases hdeleting
  | selectFails progress message => cases hsucceeds
  | none progress hphase hpicks =>
      rw [hphase] at hstage
      have hempty : (expired s.database progress.task.purge).length = 0 := by
        have hlength : 0 = min (batchSize : ℕ) (expired s.database progress.task.purge).length :=
          hpicks.2.2
        have hpositive := batchSize.pos
        omega
      change Sound batchSize ⟨keep s.database (tables s.database), _, _⟩
      rw [keep_tables]
      exact .of_stage (hstage.finish (List.eq_nil_of_length_eq_zero hempty))
        fun _ _ hdeleting => by cases hdeleting
  | select progress rows hphase hpicks =>
      rw [hphase] at hstage
      change Sound batchSize ⟨keep s.database (tables s.database), _, _⟩
      rw [keep_tables]
      refine ⟨hstage, fun next batch hdeleting => ?_⟩
      cases hdeleting
      exact hpicks.2.2
  | delete progress rows picked hphase hpicks =>
      rw [database_endBatch]
      exact hs.delete hphase hpicks rfl rfl
  | deleteFails progress rows picked message => cases hsucceeds
  | wake progress hphase | close error hphase =>
      apply hs.advance rfl
      · rw [hphase]
        rfl
      · exact fun _ _ hdeleting => by cases hdeleting
  | crash => cases hsucceeds

theorem Sound.operate (hs : Sound batchSize s) {operation : AppendOperation} {databaseNow : ℕ}
    (hclean : DividesNoKey s (.operate operation databaseNow)) :
    Sound batchSize { s with database :=
      (operation.writes s.database (s.database.maxSeq operation.key + 1) databaseNow).1 } where
  stage := hs.stage.writes hclean.1 hclean.2
  batch := by
    intro progress rows hphase
    have hstage := hs.stage
    have hmeets := hclean.2
    rw [hphase] at hstage hmeets
    rw [hstage.expired_writes hmeets]
    exact hs.batch progress rows hphase

theorem Sound.consistent (hs : Sound batchSize s) (hdone : s.job.phase.pending = []) :
    s.database.Consistent := by
  have hstage := hs.stage
  rw [hdone] at hstage
  cases hstage with
  | events hpending => cases hpending
  | projections hpending => cases hpending
  | others hothers hdb => exact hdb

theorem sound_step (hs : Sound batchSize s) (hmeets : DividesNoKey s action)
    (hstep : step (apply batchSize archiveType) s action = some s') : Sound batchSize s' := by
  cases action with
  | operate operation databaseNow =>
      have hstatement : step (apply batchSize archiveType) s (.operate operation databaseNow) =
          some { s with database := (operation.writes s.database
            (s.database.maxSeq operation.key + 1) databaseNow).1 } := by
        rw [step, AppendOperation.statementAt_eq (Nat.lt_succ_self _)]
        rfl
      cases hstatement.symm.trans hstep
      exact hs.operate hmeets
  | start now =>
      simp only [step] at hstep
      split at hstep
      · next hphase =>
          cases hstep
          have hdb := hs.consistent (by rw [hphase]; rfl)
          refine .of_stage (.events rfl fun key => whole_of_consistent hdb (hmeets key)) ?_
          exact fun _ _ hdeleting => by cases hdeleting
      · cases hstep
  | job action => exact hs.job hmeets hstep

/-- In the runs in which no cutoff divides a key, the law is kept. -/
theorem keepsLaw_dividesNoKey (batchSize : ℕ+) (archiveType : ArchiveType) :
    KeepsLaw DividesNoKey batchSize archiveType := by
  intro s hreach hdone
  have hs : Sound batchSize s := hreach.preserves
    (fun _ _ _ hs hmeets hstep => sound_step hs hmeets hstep) Sound.init
  exact .of_consistent (hs.consistent hdone)

def order : SettlementInput :=
  { idempotencyKey := "order-1", network := some "stellar:pubnet", scheme := some "exact" }

def orderInitiated : Row :=
  ⟨0, [("idempotency_key", .text "order-1"), ("seq", .number 1), ("recorded_at", .time 0)]⟩

def nothingExpired : List Action := [.job (.start none), .job (.select (.ok []))]

def dividedOrder : List Action :=
  [.operate (.save order) 0,
    .operate (.updateState "order-1" .settled { txHash := some "ab12" }) 5000000,
    .start (settlementRetention + 2000),
    .job (.start none), .job (.select (.ok [orderInitiated])),
    .job (.delete [orderInitiated] none)] ++
  (List.replicate 6 nothingExpired).flatten

/-- The row still has the network that the event left over does not know. -/
theorem not_keepsLaw_jobSucceeds :
    ¬ ∀ (batchSize : ℕ+) (archiveType : ArchiveType),
      KeepsLaw JobSucceeds batchSize archiveType := by
  intro hkeeps
  have hrun : (run (guarded (step (apply 500 .file)) fun _ action => action.succeeds)
      .init dividedOrder).map (fun s =>
        (s.job.phase.pending.length, (s.database.log "order-1").length,
          (projectSettlement (s.database.log "order-1")).map Settlement.network,
          (s.database.projections.get "order-1").map fun row => row.columns.network)) =
      some (0, 1, some "", some "stellar:pubnet") := by
    decide +kernel
  obtain ⟨s, hs, hobserved⟩ := Option.map_eq_some_iff.mp hrun
  simp only [Prod.mk.injEq] at hobserved
  obtain ⟨hdone, hlength, hfold, hnetwork⟩ := hobserved
  have hlaw := hkeeps 500 .file s (reaches_of_run_guarded hs) (List.eq_nil_of_length_eq_zero hdone)
  obtain ⟨row, hrow, hnetwork⟩ := Option.map_eq_some_iff.mp hnetwork
  obtain ⟨event, hlog⟩ := List.length_eq_one_iff.mp hlength
  have hselected : projectSettlement (s.database.selectLog "order-1") =
      (projectSettlement (s.database.log "order-1")).map (Settlement.mapTime toMillis) := by
    rw [selectLog, hlog, List.mergeSort_singleton]
    exact (mapTime_projectSettlement toMillis [event]).symm
  have hfolds := congrArg (Option.map Settlement.network) (hlaw.folds "order-1" row hrow)
  rw [hselected, Option.map_map] at hfolds
  have hsame : some "" = some "stellar:pubnet" := by
    calc
      some "" = (projectSettlement (s.database.log "order-1")).map Settlement.network := hfold.symm
      _ = some row.columns.network := hfolds
      _ = some "stellar:pubnet" := congrArg some hnetwork
  revert hsame
  decide

end Settlements

end X402Facilitator.Retention
