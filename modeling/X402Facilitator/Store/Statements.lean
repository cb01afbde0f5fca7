import X402Facilitator.Store.Postgres

/-!
# What a statement does to the tables

`Consistent` is what every statement preserves: a row is the fold of the events
of its key, to the microsecond, and its version is their number.  The statement
that can break it is an update whose response is falsy and not null, since the
column skips such a response and the fold does not.  `Folded` says the same of the
log and the row of one key.
-/

namespace X402Facilitator.Database

variable {db db' : Database} {key : String} {event : SettlementEvent ℕ}

theorem log_insertEvent (hinsert : db.insertEvent key event = some db') (other : String) :
    db'.log other = if other = key then db.log other ++ [event] else db.log other := by
  rw [insertEvent] at hinsert
  split at hinsert
  · cases hinsert
  · cases hinsert
    by_cases hother : other = key
    · simp [log, hother]
    · simp [log, hother, Ne.symm hother]

theorem projections_insertEvent (hinsert : db.insertEvent key event = some db') :
    db'.projections = db.projections := by
  rw [insertEvent] at hinsert
  split at hinsert
  · cases hinsert
  · cases hinsert
    rfl

theorem foldl_max_range' (n : ℕ) : (List.range' 1 n).foldl max 0 = n := by
  induction n with
  | zero => rfl
  | succ n ih =>
      rw [List.range'_concat, List.foldl_append, ih]
      simp
      omega

def Numbered (db : Database) (key : String) : Prop :=
  (db.log key).map SettlementEvent.seq = List.range' 1 (db.log key).length

theorem Numbered.maxSeq (hnumbered : db.Numbered key) :
    db.maxSeq key = (db.log key).length := by
  calc
    db.maxSeq key = ((db.log key).map SettlementEvent.seq).foldl max 0 := by
      rw [Database.maxSeq, List.foldl_map]
    _ = (List.range' 1 (db.log key).length).foldl max 0 := by rw [hnumbered]
    _ = (db.log key).length := foldl_max_range' _

theorem le_foldl_max (events : List (SettlementEvent ℕ)) (start : ℕ) :
    start ≤ events.foldl (fun seq event => max seq event.seq) start ∧
      ∀ event ∈ events,
        event.seq ≤ events.foldl (fun seq event => max seq event.seq) start := by
  induction events generalizing start with
  | nil => simp
  | cons first events ih =>
      obtain ⟨hstart, hevents⟩ := ih (max start first.seq)
      simp only [List.foldl_cons, List.mem_cons]
      refine ⟨le_trans (le_max_left _ _) hstart, ?_⟩
      rintro event (rfl | hevent)
      · exact le_trans (le_max_right _ _) hstart
      · exact hevents event hevent

theorem seq_le_maxSeq (hevent : event ∈ db.log key) : event.seq ≤ db.maxSeq key :=
  (le_foldl_max (db.log key) 0).2 event hevent

/-- A sequence number past the largest one is free. -/
theorem insertEvent_of_maxSeq_lt (hseq : db.maxSeq key < event.seq) :
    db.insertEvent key event = some { db with events := db.events ++ [⟨key, event⟩] } := by
  apply if_neg
  intro hany
  obtain ⟨other, hother, heq⟩ := List.any_eq_true.mp hany
  have hle := seq_le_maxSeq hother
  have hsame : other.seq = event.seq := by simpa using heq
  omega

/-- The next sequence number never violates the unique constraint. -/
theorem Numbered.exists_insertEvent (hnumbered : db.Numbered key)
    (event : SettlementEvent ℕ) (hseq : event.seq = (db.log key).length + 1) :
    ∃ db', db.insertEvent key event = some db' := by
  apply Exists.intro
  apply insertEvent_of_maxSeq_lt
  rw [hnumbered.maxSeq, hseq]
  exact Nat.lt_succ_self _

/-- `ORDER BY seq` finds the events in order already. -/
theorem Numbered.selectLog (hnumbered : db.Numbered key) :
    db.selectLog key = (db.log key).map mapEventRow := by
  have hsorted : (db.log key).Pairwise fun left right => left.seq ≤ right.seq := by
    rw [← List.pairwise_map (f := SettlementEvent.seq) (R := (· ≤ ·)), hnumbered]
    exact (List.pairwise_lt_range' (s := 1)).imp Nat.le_of_lt
  rw [Database.selectLog, List.mergeSort_of_pairwise]
  exact hsorted.imp fun h => by simpa using h

structure Consistent (db : Database) : Prop where
  projected : ∀ key, (db.projections.get key).map ProjectionRow.columns =
    projectSettlement (db.log key)
  present : ∀ key, db.log key ≠ [] → ∃ row, db.projections.get key = some row
  numbered : ∀ key, db.Numbered key
  version : ∀ key row, db.projections.get key = some row →
    row.version = (db.log key).length
  keyed : ∀ key row, db.projections.get key = some row →
    row.columns.idempotencyKey = key
  responses : ∀ key row, db.projections.get key = some row →
    responseParameter row.columns.response = row.columns.response

theorem Consistent.empty : Consistent Database.empty where
  projected := fun _ => rfl
  present := fun key hne => absurd rfl hne
  numbered := fun _ => rfl
  version := fun key row hrow => by simp [Database.empty] at hrow
  keyed := fun key row hrow => by simp [Database.empty] at hrow
  responses := fun key row hrow => by simp [Database.empty] at hrow

theorem Consistent.log_eq_nil (hdb : Consistent db)
    (hnone : db.projections.get key = none) : db.log key = [] := by
  by_contra hne
  obtain ⟨row, hrow⟩ := hdb.present key hne
  rw [hnone] at hrow
  cases hrow

structure Folded (key : String) (log : List (SettlementEvent ℕ)) (row : Option ProjectionRow) :
    Prop where
  projected : row.map ProjectionRow.columns = projectSettlement log
  present : row = none → log = []
  numbered : log.map SettlementEvent.seq = List.range' 1 log.length
  version : ∀ found, row = some found → found.version = log.length
  keyed : ∀ found, row = some found → found.columns.idempotencyKey = key
  responses : ∀ found, row = some found →
    responseParameter found.columns.response = found.columns.response

variable {log : List (SettlementEvent ℕ)} {row : Option ProjectionRow}

theorem Folded.nil (key : String) : Folded key [] none where
  projected := rfl
  present := fun _ => rfl
  numbered := rfl
  version := fun _ hfound => by cases hfound
  keyed := fun _ hfound => by cases hfound
  responses := fun _ hfound => by cases hfound

/-- The tables are consistent key by key. -/
theorem consistent_iff (db : Database) :
    Consistent db ↔ ∀ key, Folded key (db.log key) (db.projections.get key) := by
  constructor
  · intro hdb key
    exact ⟨hdb.projected key, hdb.log_eq_nil, hdb.numbered key, hdb.version key, hdb.keyed key,
      hdb.responses key⟩
  · intro hfolded
    refine ⟨fun key => (hfolded key).projected, fun key hne => ?_,
      fun key => (hfolded key).numbered, fun key => (hfolded key).version,
      fun key => (hfolded key).keyed, fun key => (hfolded key).responses⟩
    apply Option.ne_none_iff_exists'.mp
    intro hnone
    exact hne ((hfolded key).present hnone)

/-- A response that the update statement and the fold treat alike. -/
def Foldable (response : Json) : Prop :=
  response = .null ∨ response.truthy = true

theorem responseParameter_of_foldable {response : Json} (hresponse : Foldable response) :
    responseParameter response = response := by
  rcases hresponse with rfl | htruthy
  · rfl
  · exact if_pos htruthy

theorem responseParameter_orElse {response old : Json} (hresponse : Foldable response)
    (hold : responseParameter old = old) :
    responseParameter (response.orElse old) = response.orElse old := by
  rcases hresponse with rfl | htruthy
  · rw [Json.orElse_null]
    exact hold
  · rw [Json.orElse_of_truthy htruthy]
    exact if_pos htruthy

theorem Folded.numbered_append (hfolded : Folded key log row) {event : SettlementEvent ℕ}
    (hseq : event.seq = log.length + 1) :
    (log ++ [event]).map SettlementEvent.seq = List.range' 1 (log ++ [event]).length := by
  rw [List.map_append, hfolded.numbered, List.length_append, List.length_singleton,
    List.range'_concat, List.map_singleton, hseq, Nat.one_mul, Nat.add_comm 1]

/-- The event of an update and the row that the statement writes over `old`. -/
theorem Folded.update {old : ProjectionRow} (hfolded : Folded key log (some old))
    (state : TargetState) {details : StateDetails} (hresponse : Foldable details.response)
    (now : ℕ) :
    Folded key
      (log ++ [MemorySettlementStore.stateEvent key state details (log.length + 1) now])
      (some (coalescedRow old state details (log.length + 1) now)) where
  projected := by
    rw [projectSettlement_append, MemorySettlementStore.stateEvent, applyEvent_forState,
      ← hfolded.projected]
    simp [coalescedRow, Settlement.merge, StateDetails.payload,
      responseParameter_of_foldable hresponse]
  present := fun hnone => by cases hnone
  numbered := hfolded.numbered_append rfl
  version := by
    rintro found ⟨⟩
    rw [List.length_append]
    rfl
  keyed := by
    rintro found ⟨⟩
    exact hfolded.keyed old rfl
  responses := by
    rintro found ⟨⟩
    change responseParameter ((responseParameter details.response).orElse old.columns.response) =
      (responseParameter details.response).orElse old.columns.response
    rw [responseParameter_of_foldable hresponse]
    exact responseParameter_orElse hresponse (hfolded.responses old rfl)

/-- The event of a `save` and the row that the statement writes. -/
theorem Folded.save {record : SettlementInput} (hfolded : Folded record.idempotencyKey log row)
    (now : ℕ) :
    Folded record.idempotencyKey
      (log ++ [MemorySettlementStore.initiatedEvent record (log.length + 1) now])
      (some {
        columns := .initiate record.payload
          ((row.map fun row => row.columns.createdAt).getD now) now
        version := log.length + 1 }) where
  projected := by
    rw [projectSettlement_append, MemorySettlementStore.initiatedEvent, applyEvent_initiated,
      ← hfolded.projected, Option.map_map]
    rfl
  present := fun hnone => by cases hnone
  numbered := hfolded.numbered_append rfl
  version := by
    rintro found ⟨⟩
    rw [List.length_append]
    rfl
  keyed := by
    rintro found ⟨⟩
    rfl
  responses := by
    rintro found ⟨⟩
    rfl

/-- Appending an event together with the row that folds it. -/
theorem Consistent.append (hdb : Consistent db) {row : ProjectionRow}
    (hinsert : db.insertEvent key event = some db')
    (hfolded : Folded key (db.log key ++ [event]) (some row)) :
    Consistent (db'.setProjection key row) := by
  rw [consistent_iff] at hdb ⊢
  intro other
  change Folded other (db'.log other) ((db'.projections.set key row).get other)
  rw [InsertionMap.get_set, log_insertEvent hinsert, projections_insertEvent hinsert]
  by_cases hother : other = key
  · subst hother
    rw [if_pos rfl, if_pos rfl]
    exact hfolded
  · rw [if_neg hother, if_neg hother]
    exact hdb other

structure Appended (db db' : Database) (key : String) (event : SettlementEvent ℕ)
    (row : ProjectionRow) : Prop where
  consistent : Consistent db'
  log : ∀ other, db'.log other =
    if other = key then db.log other ++ [event] else db.log other
  row : db'.projections.get key = some row

theorem Consistent.appended (hdb : Consistent db) {row : ProjectionRow}
    (hinsert : db.insertEvent key event = some db')
    (hfolded : Folded key (db.log key ++ [event]) (some row)) :
    Appended db (db'.setProjection key row) key event row where
  consistent := hdb.append hinsert hfolded
  log := by
    intro other
    change db'.log other = _
    exact log_insertEvent hinsert other
  row := InsertionMap.get_set_self _ _ _

/-- The `save` statement succeeds and appends an initiated event. -/
theorem Consistent.saveStatement (hdb : Consistent db) (now : ℕ)
    (record : SettlementInput) :
    ∃ db' row, db.saveStatement now record = some (db', row) ∧
      Appended db db' record.idempotencyKey
        (MemorySettlementStore.initiatedEvent record
          ((db.log record.idempotencyKey).length + 1) now) row ∧
      row.columns.toInput.payload = record.payload ∧
      row.columns.idempotencyKey = record.idempotencyKey := by
  have hnumbered := hdb.numbered record.idempotencyKey
  obtain ⟨db', hinsert⟩ := hnumbered.exists_insertEvent
    (MemorySettlementStore.initiatedEvent record
      ((db.log record.idempotencyKey).length + 1) now) rfl
  have hstatement : db.saveStatement now record =
      some (db'.setProjection record.idempotencyKey (db'.initiatedRow record
        ((db.log record.idempotencyKey).length + 1) now),
        db'.initiatedRow record ((db.log record.idempotencyKey).length + 1) now) := by
    rw [Database.saveStatement, saveAt, hnumbered.maxSeq]
    exact congrArg _ hinsert
  have hfolded := ((consistent_iff db).mp hdb record.idempotencyKey).save now
  refine ⟨_, _, hstatement, hdb.appended hinsert ?_, rfl, rfl⟩
  rw [initiatedRow, projections_insertEvent hinsert]
  exact hfolded

/-- The update statement on a key with a row appends the event of the new
state, provided that the fold treats the response as the column does. -/
theorem Consistent.updateStatement (hdb : Consistent db) (now : ℕ)
    (state : TargetState) {details : StateDetails} (hresponse : Foldable details.response)
    {old : ProjectionRow} (hold : db.projections.get key = some old) :
    ∃ db' row, db.updateStatement now key state details = some (db', some row) ∧
      Appended db db' key
        (MemorySettlementStore.stateEvent key state details ((db.log key).length + 1) now)
        row := by
  have hnumbered := hdb.numbered key
  obtain ⟨db', hinsert⟩ := hnumbered.exists_insertEvent
    (MemorySettlementStore.stateEvent key state details
      ((db.log key).length + 1) now) rfl
  have hstatement : db.updateStatement now key state details =
      some (db'.setProjection key (coalescedRow old state details
        ((db.log key).length + 1) now),
        some (coalescedRow old state details ((db.log key).length + 1) now)) := by
    rw [Database.updateStatement, updateAt, hold, hnumbered.maxSeq]
    exact congrArg (Option.map _) hinsert
  have hfolded := (consistent_iff db).mp hdb key
  rw [hold] at hfolded
  exact ⟨_, _, hstatement, hdb.appended hinsert (hfolded.update state hresponse now)⟩

theorem updateStatement_of_none (now : ℕ) (state : TargetState) (details : StateDetails)
    (hnone : db.projections.get key = none) :
    db.updateStatement now key state details = some (db, none) := by
  rw [updateStatement, updateAt, hnone]

end X402Facilitator.Database
