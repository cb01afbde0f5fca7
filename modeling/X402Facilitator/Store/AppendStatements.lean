import X402Facilitator.Store.Statements

/-!
# The appending statements

Each operation of the Postgres store is one statement at the sequence number of
its snapshot.  At a free number the statement does not fail: it appends its
event, writes the row of its key and, in a settlement, the notification.  A
statement on a key whose row folds its events keeps it so, whatever the tables hold
of other keys.
-/

namespace X402Facilitator

inductive AppendOperation where
  | save (record : SettlementInput)
  | updateState (key : String) (state : TargetState) (details : StateDetails)
  | settleAndEnqueue (key : String) (details : StateDetails)
      (event : Option (String × SettlementNotification))

namespace AppendOperation

def key : AppendOperation → String
  | save record => record.idempotencyKey
  | updateState key _ _ => key
  | settleAndEnqueue key _ _ => key

def event (operation : AppendOperation) (seq now : ℕ) : SettlementEvent ℕ :=
  match operation with
  | save record => MemorySettlementStore.initiatedEvent record seq now
  | updateState key state details =>
      MemorySettlementStore.stateEvent key state details seq now
  | settleAndEnqueue key details _ =>
      MemorySettlementStore.stateEvent key .settled details seq now

/-- Whether the statement inserts at all, given whether its snapshot has a row
of the key. -/
def inserts : AppendOperation → Bool → Bool
  | save _, _ => true
  | _, present => present

/-- A row that stays keeps the statement inserting. -/
theorem inserts_mono {operation : AppendOperation} {before after : Bool}
    (hinserts : operation.inserts before = true) (hstays : before = true → after = true) :
    operation.inserts after = true := by
  cases operation with
  | save record => rfl
  | updateState key state details => exact hstays hinserts
  | settleAndEnqueue key details event => exact hstays hinserts

/-- The statement at the sequence number of its snapshot. -/
def statementAt (db : Database) (seq now : ℕ) :
    AppendOperation → Option (Database × Option ProjectionRow)
  | save record => (db.saveAt seq now record).map fun (db, row) => (db, some row)
  | updateState key state details => db.updateAt seq now key state details
  | settleAndEnqueue key details event => db.settleAt seq now key details event

def inMemory (memory : MemorySettlementStore ℕ) (now : ℕ) :
    AppendOperation → MemorySettlementStore ℕ × Option (Settlement ℕ)
  | save record => memory.save now record
  | updateState key state details => memory.updateState now key state details
  | settleAndEnqueue key details _ => memory.updateState now key .settled details

/-- The copy of a committed write in the process-local store. -/
def mirror (memory : MemorySettlementStore ℕ) (now : ℕ) (row : ProjectionRow) :
    AppendOperation → MemorySettlementStore ℕ
  | save _ => (memory.save now (mapProjectionRow row).columns.toInput).1
  | updateState key state details => (memory.updateState now key state details).1
  | settleAndEnqueue key details _ => (memory.updateState now key .settled details).1

def rowOver (operation : AppendOperation) (old : Option ProjectionRow) (seq now : ℕ) :
    Option ProjectionRow :=
  match operation with
  | save record => some
      { columns := .initiate record.payload
          ((old.map fun row => row.columns.createdAt).getD now) now
        version := seq }
  | updateState _ state details =>
      old.map fun row => Database.coalescedRow row state details seq now
  | settleAndEnqueue _ details _ =>
      old.map fun row => Database.coalescedRow row .settled details seq now

def enqueued : AppendOperation → List (String × SettlementNotification)
  | settleAndEnqueue _ _ event => event.toList
  | _ => []

def append (operation : AppendOperation) (db : Database) (seq now : ℕ)
    (row : ProjectionRow) : Database where
  events := db.events ++ [⟨operation.key, operation.event seq now⟩]
  projections := db.projections.set operation.key row
  outbox := db.outbox ++ operation.enqueued

def writes (operation : AppendOperation) (db : Database) (seq now : ℕ) :
    Database × Option ProjectionRow :=
  match operation.rowOver (db.projections.get operation.key) seq now with
  | none => (db, none)
  | some row => (operation.append db seq now row, some row)

@[simp]
theorem enqueued_save (record : SettlementInput) : (save record).enqueued = [] := rfl

@[simp]
theorem enqueued_updateState (key : String) (state : TargetState)
    (details : StateDetails) : (updateState key state details).enqueued = [] := rfl

@[simp]
theorem event_seq (operation : AppendOperation) (seq now : ℕ) :
    (operation.event seq now).seq = seq := by
  cases operation <;> rfl

@[simp]
theorem event_recordedAt (operation : AppendOperation) (seq now : ℕ) :
    (operation.event seq now).recordedAt = now := by
  cases operation <;> rfl

theorem rowOver_isSome (operation : AppendOperation) (old : Option ProjectionRow)
    (seq now : ℕ) :
    (operation.rowOver old seq now).isSome = operation.inserts old.isSome := by
  cases operation with
  | save record => rfl
  | updateState key state details => exact Option.isSome_map
  | settleAndEnqueue key details event => exact Option.isSome_map

theorem version_rowOver {operation : AppendOperation} {old : Option ProjectionRow}
    {seq now : ℕ} {row : ProjectionRow} (hrow : operation.rowOver old seq now = some row) :
    row.version = seq := by
  cases operation with
  | save record =>
      cases hrow
      rfl
  | updateState key state details | settleAndEnqueue key details event =>
      obtain ⟨before, -, rfl⟩ := Option.map_eq_some_iff.mp hrow
      rfl

theorem updatedAt_rowOver {operation : AppendOperation} {old : Option ProjectionRow}
    {seq now : ℕ} {row : ProjectionRow} (hrow : operation.rowOver old seq now = some row) :
    row.columns.updatedAt = now := by
  cases operation with
  | save record =>
      cases hrow
      rfl
  | updateState key state details | settleAndEnqueue key details event =>
      obtain ⟨before, -, rfl⟩ := Option.map_eq_some_iff.mp hrow
      rfl

theorem writes_of_none {operation : AppendOperation} {db : Database} {seq now : ℕ}
    (hnone : operation.rowOver (db.projections.get operation.key) seq now = none) :
    operation.writes db seq now = (db, none) := by
  rw [writes, hnone]

theorem writes_of_some {operation : AppendOperation} {db : Database} {seq now : ℕ}
    {row : ProjectionRow}
    (hrow : operation.rowOver (db.projections.get operation.key) seq now = some row) :
    operation.writes db seq now = (operation.append db seq now row, some row) := by
  rw [writes, hrow]

/-- The updating statement at a free sequence number. -/
theorem updateAt_eq {db : Database} {key : String} {seq : ℕ} (hseq : db.maxSeq key < seq)
    (now : ℕ) (state : TargetState) (details : StateDetails) :
    db.updateAt seq now key state details =
      some ((updateState key state details).writes db seq now) := by
  rw [Database.updateAt]
  cases hold : db.projections.get key with
  | none =>
      have hrow : (updateState key state details).rowOver (db.projections.get key)
          seq now = none := by rw [hold]; rfl
      rw [writes_of_none hrow]
  | some old =>
      have hrow : (updateState key state details).rowOver (db.projections.get key)
          seq now = some (Database.coalescedRow old state details seq now) := by
        rw [hold]; rfl
      have hinsert : db.insertEvent key
          (MemorySettlementStore.stateEvent key state details seq now) = some
            { db with events := db.events ++
                [⟨key, MemorySettlementStore.stateEvent key state details seq now⟩] } :=
        Database.insertEvent_of_maxSeq_lt hseq
      rw [writes_of_some hrow, append, enqueued_updateState, List.append_nil]
      exact congrArg (Option.map _) hinsert

/-- A statement at a free sequence number takes effect. -/
theorem statementAt_eq {db : Database} {operation : AppendOperation} {seq : ℕ}
    (hseq : db.maxSeq operation.key < seq) (now : ℕ) :
    operation.statementAt db seq now = some (operation.writes db seq now) := by
  cases operation with
  | save record =>
      have hinsert : db.insertEvent record.idempotencyKey
          (MemorySettlementStore.initiatedEvent record seq now) = some
            { db with events := db.events ++ [⟨record.idempotencyKey,
                MemorySettlementStore.initiatedEvent record seq now⟩] } :=
        Database.insertEvent_of_maxSeq_lt hseq
      rw [statementAt, Database.saveAt, ← MemorySettlementStore.initiatedEvent, hinsert,
        writes_of_some rfl, append, enqueued_save, List.append_nil]
      rfl
  | updateState key state details => exact updateAt_eq hseq now state details
  | settleAndEnqueue key details event =>
      have hupdated := updateAt_eq (show db.maxSeq key < seq from hseq) now .settled details
      rw [statementAt, Database.settleAt, hupdated]
      cases hold : db.projections.get key with
      | none =>
          have hupdate : (updateState key .settled details).rowOver
              (db.projections.get key) seq now = none := by rw [hold]; rfl
          have hsettle : (settleAndEnqueue key details event).rowOver
              (db.projections.get key) seq now = none := by rw [hold]; rfl
          rw [writes_of_none hupdate, writes_of_none hsettle]
          rfl
      | some old =>
          have hupdate : (updateState key .settled details).rowOver
              (db.projections.get key) seq now =
                some (Database.coalescedRow old .settled details seq now) := by
            rw [hold]; rfl
          have hsettle : (settleAndEnqueue key details event).rowOver
              (db.projections.get key) seq now =
                some (Database.coalescedRow old .settled details seq now) := by
            rw [hold]; rfl
          rw [writes_of_some hupdate, writes_of_some hsettle, append,
            enqueued_updateState, List.append_nil]
          rfl

section Append

variable (operation : AppendOperation) (db : Database) (seq now : ℕ) (row : ProjectionRow)

theorem log_append (key : String) :
    (operation.append db seq now row).log key =
      if key = operation.key then db.log key ++ [operation.event seq now]
      else db.log key := by
  by_cases hkey : key = operation.key
  · simp [Database.log, append, hkey]
  · simp [Database.log, append, hkey, Ne.symm hkey]

theorem projections_append (key : String) :
    (operation.append db seq now row).projections.get key =
      if key = operation.key then some row else db.projections.get key :=
  InsertionMap.get_set db.projections operation.key key row

theorem key_event : (operation.event seq now).payload.idempotencyKey = operation.key := by
  cases operation <;> rfl

theorem stateByEventType_event :
    (stateByEventType (operation.event seq now).eventType).isSome := by
  cases operation with
  | save record => rfl
  | updateState key state details =>
      exact Option.isSome_of_eq_some (stateByEventType_eventTypeForState state)
  | settleAndEnqueue key details event => rfl

end Append

end AppendOperation

/-- The response that reaches the update of a row. -/
def AppendOperation.response : AppendOperation → Json
  | .save _ => .null
  | .updateState _ _ details | .settleAndEnqueue _ details _ => details.response

namespace Database

variable {key : String} {log : List (SettlementEvent ℕ)} {row : Option ProjectionRow}

/-- A statement on the key appends an event and writes a row over the old one. -/
theorem Folded.append {operation : AppendOperation} (hfolded : Folded operation.key log row)
    (hresponse : row.isSome = true → Foldable operation.response) {now : ℕ} {new : ProjectionRow}
    (hnew : operation.rowOver row (log.length + 1) now = some new) :
    Folded operation.key (log ++ [operation.event (log.length + 1) now]) (some new) := by
  cases operation with
  | save record =>
      cases hnew
      exact hfolded.save now
  | updateState key state details =>
      obtain ⟨old, rfl, rfl⟩ := Option.map_eq_some_iff.mp hnew
      exact hfolded.update state (hresponse rfl) now
  | settleAndEnqueue key details event =>
      obtain ⟨old, rfl, rfl⟩ := Option.map_eq_some_iff.mp hnew
      exact hfolded.update .settled (hresponse rfl) now

section Writes

variable {db : Database} {operation : AppendOperation}

/-- A statement touches its own key only. -/
theorem writes_of_ne (db : Database) (seq now : ℕ) (hkey : key ≠ operation.key) :
    (operation.writes db seq now).1.log key = db.log key ∧
      (operation.writes db seq now).1.projections.get key = db.projections.get key := by
  rw [AppendOperation.writes]
  split
  · exact ⟨rfl, rfl⟩
  · rw [AppendOperation.log_append, AppendOperation.projections_append, if_neg hkey, if_neg hkey]
    exact ⟨rfl, rfl⟩

/-- A statement at the next number keeps what it finds at its key. -/
theorem Folded.writes
    (hfolded : Folded operation.key (db.log operation.key) (db.projections.get operation.key))
    (hresponse : (db.projections.get operation.key).isSome = true → Foldable operation.response)
    (now : ℕ) :
    Folded operation.key
      ((operation.writes db (db.maxSeq operation.key + 1) now).1.log operation.key)
      ((operation.writes db (db.maxSeq operation.key + 1) now).1.projections.get
        operation.key) := by
  have hnumbered : db.Numbered operation.key := hfolded.numbered
  rw [hnumbered.maxSeq, AppendOperation.writes]
  split
  · exact hfolded
  · next row hrow =>
      rw [AppendOperation.log_append, AppendOperation.projections_append, if_pos rfl, if_pos rfl]
      exact hfolded.append hresponse hrow

theorem Consistent.writes (hdb : Consistent db)
    (hresponse : (db.projections.get operation.key).isSome = true → Foldable operation.response)
    (now : ℕ) : Consistent (operation.writes db (db.maxSeq operation.key + 1) now).1 := by
  rw [consistent_iff] at hdb ⊢
  intro key
  by_cases hkey : key = operation.key
  · subst hkey
    exact (hdb operation.key).writes hresponse now
  · obtain ⟨hlog, hget⟩ := writes_of_ne db (db.maxSeq operation.key + 1) now hkey
    rw [hlog, hget]
    exact hdb key

end Writes

section Reads

variable {db : Database} {found : ProjectionRow}

/-- The row, as it is handed out, is the fold of the log, as it is handed out. -/
theorem Folded.projectSettlement_selectLog
    (hfolded : Folded key (db.log key) (db.projections.get key)) :
    projectSettlement (db.selectLog key) =
      (db.projections.get key).map fun row => (mapProjectionRow row).columns := by
  have hnumbered : db.Numbered key := hfolded.numbered
  calc
    projectSettlement (db.selectLog key) =
        (projectSettlement (db.log key)).map (Settlement.mapTime toMillis) := by
      rw [hnumbered.selectLog, mapTime_projectSettlement]
      rfl
    _ = ((db.projections.get key).map ProjectionRow.columns).map (Settlement.mapTime toMillis) := by
      rw [hfolded.projected]
    _ = (db.projections.get key).map fun row => (mapProjectionRow row).columns := by
      rw [Option.map_map]
      rfl

/-- The events that are handed out are numbered up to the version of the row. -/
theorem Folded.selectLog_seq (hfolded : Folded key (db.log key) (db.projections.get key))
    (hfound : db.projections.get key = some found) :
    (db.selectLog key).map SettlementEvent.seq = List.range' 1 found.version := by
  have hnumbered : db.Numbered key := hfolded.numbered
  rw [hnumbered.selectLog, List.map_map, hfolded.version found hfound]
  exact hnumbered

theorem Folded.maxSeq (hfolded : Folded key (db.log key) (db.projections.get key))
    (hfound : db.projections.get key = some found) : db.maxSeq key = found.version := by
  have hnumbered : db.Numbered key := hfolded.numbered
  rw [hnumbered.maxSeq, hfolded.version found hfound]

end Reads

end Database

end X402Facilitator
