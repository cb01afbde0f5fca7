import X402Facilitator.Store.AppendStatements

/-!
# What an appending statement leaves in the tables

`Agrees` is what every statement preserves whatever the response is: the rows are
the folds of the logs on every column but the response.
-/

namespace X402Facilitator

namespace Database

variable {db : Database} {operation : AppendOperation} {now : ℕ}

structure Agrees (db : Database) : Prop where
  projected : ∀ key,
    (db.projections.get key).map (fun row => row.columns.withoutResponse) =
      (projectSettlement (db.log key)).map Settlement.withoutResponse
  numbered : ∀ key, db.Numbered key
  known : ∀ key, ∀ event ∈ db.log key, (stateByEventType event.eventType).isSome
  addressed : ∀ key, ∀ event ∈ db.log key, event.payload.idempotencyKey = key
  version : ∀ key row, db.projections.get key = some row →
    row.version = (db.log key).length
  keyed : ∀ key row, db.projections.get key = some row →
    row.columns.idempotencyKey = key

theorem Agrees.empty : Agrees .empty where
  projected := fun _ => rfl
  numbered := fun _ => rfl
  known := fun key event hevent => by cases hevent
  addressed := fun key event hevent => by cases hevent
  version := fun key row hrow => by cases hrow
  keyed := fun key row hrow => by cases hrow

/-- A key has a row exactly when it has events. -/
theorem Agrees.isSome_iff (hdb : Agrees db) (key : String) :
    (db.projections.get key).isSome ↔ db.log key ≠ [] := by
  have hsome := congrArg Option.isSome (hdb.projected key)
  rw [Option.isSome_map, Option.isSome_map] at hsome
  rw [hsome]
  constructor
  · intro hprojection hnil
    rw [hnil] at hprojection
    cases hprojection
  · intro hne
    exact projectSettlement_isSome hne (hdb.known key)

/-- The events are numbered by their positions in the log. -/
theorem Agrees.seq_le_length (hdb : Agrees db) {key : String} {event : SettlementEvent ℕ}
    (hevent : event ∈ db.log key) : event.seq ≤ (db.log key).length := by
  calc
    event.seq ≤ db.maxSeq key := seq_le_maxSeq hevent
    _ = (db.log key).length := (hdb.numbered key).maxSeq

/-- The fold of the log as the process reads it. -/
theorem Agrees.projectSettlement_selectLog (hdb : Agrees db) (key : String) :
    projectSettlement (db.selectLog key) =
      (projectSettlement (db.log key)).map (Settlement.mapTime toMillis) := by
  rw [(hdb.numbered key).selectLog, mapTime_projectSettlement]
  rfl

theorem Agrees.length_selectLog (hdb : Agrees db) (key : String) :
    (db.selectLog key).length = (db.log key).length := by
  rw [(hdb.numbered key).selectLog, List.length_map]

/-- The written row is one more step of the fold. -/
theorem Agrees.rowOver (hdb : Agrees db) {seq : ℕ} {row : ProjectionRow}
    (hrow : operation.rowOver (db.projections.get operation.key) seq now = some row) :
    some row.columns.withoutResponse =
        (applyEvent (projectSettlement (db.log operation.key))
          (operation.event seq now)).map Settlement.withoutResponse ∧
      row.columns.idempotencyKey = operation.key := by
  rw [withoutResponse_applyEvent, ← hdb.projected]
  cases operation with
  | save record =>
      cases hrow
      refine ⟨?_, rfl⟩
      rw [AppendOperation.event, MemorySettlementStore.initiatedEvent,
        applyEvent_initiated, Option.map_map]
      rfl
  | updateState key state details | settleAndEnqueue key details event =>
      obtain ⟨old, hold, rfl⟩ := Option.map_eq_some_iff.mp hrow
      refine ⟨?_, hdb.keyed key old hold⟩
      rw [hold, AppendOperation.event, MemorySettlementStore.stateEvent,
        applyEvent_forState]
      rfl

/-- Appending the next event of a key with its row. -/
theorem Agrees.append (hdb : Agrees db) {row : ProjectionRow}
    (hrow : operation.rowOver (db.projections.get operation.key)
      ((db.log operation.key).length + 1) now = some row) :
    Agrees (operation.append db ((db.log operation.key).length + 1) now row) where
  projected := by
    intro key
    rw [AppendOperation.log_append, AppendOperation.projections_append]
    by_cases hkey : key = operation.key
    · subst hkey
      rw [if_pos rfl, if_pos rfl, projectSettlement_append]
      exact (hdb.rowOver hrow).1
    · rw [if_neg hkey, if_neg hkey]
      exact hdb.projected key
  numbered := by
    intro key
    rw [Numbered, AppendOperation.log_append]
    by_cases hkey : key = operation.key
    · subst hkey
      rw [if_pos rfl, List.map_append, hdb.numbered operation.key, List.length_append,
        List.length_singleton, List.range'_concat, List.map_singleton,
        AppendOperation.event_seq, Nat.one_mul, Nat.add_comm 1]
    · rw [if_neg hkey]
      exact hdb.numbered key
  known := by
    intro key event hevent
    rw [AppendOperation.log_append] at hevent
    split at hevent
    · rcases List.mem_append.mp hevent with hold | hnew
      · exact hdb.known key event hold
      · rw [List.mem_singleton.mp hnew]
        exact AppendOperation.stateByEventType_event operation _ _
    · exact hdb.known key event hevent
  addressed := by
    intro key event hevent
    rw [AppendOperation.log_append] at hevent
    split at hevent
    · next hkey =>
        rcases List.mem_append.mp hevent with hold | hnew
        · exact hdb.addressed key event hold
        · rw [List.mem_singleton.mp hnew, hkey]
          exact AppendOperation.key_event operation _ _
    · exact hdb.addressed key event hevent
  version := by
    intro key found hfound
    rw [AppendOperation.projections_append] at hfound
    rw [AppendOperation.log_append]
    by_cases hkey : key = operation.key
    · subst hkey
      rw [if_pos rfl] at hfound ⊢
      cases hfound
      rw [AppendOperation.version_rowOver hrow, List.length_append, List.length_singleton]
    · rw [if_neg hkey] at hfound ⊢
      exact hdb.version key found hfound
  keyed := by
    intro key found hfound
    rw [AppendOperation.projections_append] at hfound
    split at hfound
    · next hkey =>
        cases hfound
        rw [hkey]
        exact (hdb.rowOver hrow).2
    · exact hdb.keyed key found hfound

/-- A statement with the next number of its key. -/
theorem Agrees.writes (hdb : Agrees db) :
    Agrees (operation.writes db ((db.log operation.key).length + 1) now).1 := by
  rw [AppendOperation.writes]
  split
  · exact hdb
  · next row hrow => exact hdb.append hrow

/-- The log of a key after a statement: the same, or one event longer. -/
theorem log_writes (db : Database) (operation : AppendOperation) (seq now : ℕ)
    (key : String) :
    (operation.writes db seq now).1.log key = db.log key ∨
      key = operation.key ∧
        operation.inserts (db.projections.get operation.key).isSome = true ∧
        (operation.writes db seq now).1.log key = db.log key ++ [operation.event seq now] := by
  cases hrow : operation.rowOver (db.projections.get operation.key) seq now with
  | none =>
      rw [AppendOperation.writes_of_none hrow]
      exact Or.inl rfl
  | some row =>
      rw [AppendOperation.writes_of_some hrow, AppendOperation.log_append]
      have hinserts := operation.rowOver_isSome (db.projections.get operation.key) seq now
      rw [hrow] at hinserts
      by_cases hkey : key = operation.key
      · rw [if_pos hkey]
        exact Or.inr ⟨hkey, hinserts.symm, rfl⟩
      · rw [if_neg hkey]
        exact Or.inl rfl

/-- The statement reads the next number and uses it. -/
theorem Agrees.statementAt (hdb : Agrees db) (operation : AppendOperation) (now : ℕ) :
    operation.statementAt db (db.maxSeq operation.key + 1) now =
      some (operation.writes db ((db.log operation.key).length + 1) now) := by
  rw [AppendOperation.statementAt_eq (Nat.lt_succ_self _),
    (hdb.numbered operation.key).maxSeq]

inductive Written (db : Database) : Database → Prop where
  | kept : Written db db
  | statement (operation : AppendOperation) (now : ℕ) :
      Written db (operation.writes db ((db.log operation.key).length + 1) now).1

theorem Agrees.of_written {db' : Database} (hdb : Agrees db) (hwritten : Written db db') :
    Agrees db' := by
  cases hwritten with
  | kept => exact hdb
  | statement operation now => exact hdb.writes

/-- A statement that took effect. -/
theorem Agrees.written (hdb : Agrees db) (operation : AppendOperation) (now : ℕ)
    {db' : Database} {row : Option ProjectionRow}
    (hstatement : operation.statementAt db (db.maxSeq operation.key + 1) now =
      some (db', row)) : Written db db' := by
  rw [hdb.statementAt] at hstatement
  obtain rfl : (operation.writes db ((db.log operation.key).length + 1) now).1 = db' :=
    congrArg Prod.fst (Option.some.inj hstatement)
  exact Written.statement operation now

end Database

namespace PostgresSettlementStore

open Database

variable {store : PostgresSettlementStore}

theorem attempt_some {α : Type*} {conditions : Conditions} {statement : Option α} {value : α}
    (hattempt : attempt conditions statement = some value) : statement = some value := by
  rw [attempt] at hattempt
  split at hattempt
  · cases hattempt
  · exact hattempt

theorem written_save (hdb : Agrees store.database) (conditions : Conditions)
    (record : SettlementInput) :
    Written store.database (store.save conditions record).1.database := by
  rw [save]
  split
  · exact Written.kept
  · split
    · exact Written.kept
    · next database row hattempt =>
        have hsaved : (AppendOperation.save record).statementAt store.database
            (store.database.maxSeq record.idempotencyKey + 1) conditions.databaseNow =
              some (database, some row) :=
          congrArg (Option.map _) (attempt_some hattempt)
        exact hdb.written (.save record) conditions.databaseNow hsaved

theorem database_afterUpdate (conditions : Conditions) (key : String) (state : TargetState)
    (details : StateDetails) (database : Database) (row : Option ProjectionRow) :
    (store.afterUpdate conditions key state details database row).1.database =
      database := by
  cases row <;> rfl

theorem written_updateState (hdb : Agrees store.database) (conditions : Conditions)
    (key : String) (state : TargetState) (details : StateDetails) :
    Written store.database
      (store.updateState conditions key state details).1.database := by
  rw [updateState]
  split
  · exact Written.kept
  · split
    · exact Written.kept
    · next database row hattempt =>
        rw [database_afterUpdate]
        exact hdb.written (.updateState key state details) conditions.databaseNow
          (attempt_some hattempt)

theorem written_settleAndEnqueue (hdb : Agrees store.database) (conditions : Conditions)
    (key : String) (details : StateDetails)
    (event : Option (String × SettlementNotification)) :
    Written store.database
      (store.settleAndEnqueue conditions key details event).1.database := by
  rw [settleAndEnqueue]
  split
  · exact Written.kept
  · split
    · exact Written.kept
    · next database row hattempt =>
        change Written _ (store.afterUpdate conditions key .settled details database
          row).1.database
        rw [database_afterUpdate]
        exact hdb.written (.settleAndEnqueue key details event) conditions.databaseNow
          (attempt_some hattempt)

end PostgresSettlementStore

end X402Facilitator
