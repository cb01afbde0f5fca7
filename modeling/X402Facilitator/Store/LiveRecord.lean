import X402Facilitator.Library.Execution
import X402Facilitator.Store.AppendStatements

/-!
# The live record is the fold of the log

One store runs next to a memory store that gets the same operations.  The rows,
the fold of the log and the answers of the memory store stay the same up to
recording times, for the runs whose operations satisfy `PassesRebuildable`.
-/

namespace X402Facilitator

open X402Facilitator.Execution

def SettlementEvent.timeless (event : SettlementEvent ℕ) : SettlementEvent Unit :=
  event.mapTime fun _ => ()

def Settlement.timeless (record : Settlement ℕ) : Settlement Unit :=
  record.mapTime fun _ => ()

def SameLog (left right : List (SettlementEvent ℕ)) : Prop :=
  left.map SettlementEvent.timeless = right.map SettlementEvent.timeless

namespace SameLog

variable {left right : List (SettlementEvent ℕ)}

theorem length_eq (hsame : SameLog left right) : left.length = right.length := by
  simpa using congrArg List.length hsame

theorem eq_nil_iff (hsame : SameLog left right) : left = [] ↔ right = [] := by
  rw [← List.length_eq_zero_iff, ← List.length_eq_zero_iff, hsame.length_eq]

theorem project (hsame : SameLog left right) :
    (projectSettlement left).map Settlement.timeless =
      (projectSettlement right).map Settlement.timeless := by
  calc
    (projectSettlement left).map Settlement.timeless =
        projectSettlement (left.map SettlementEvent.timeless) :=
      mapTime_projectSettlement _ _
    _ = projectSettlement (right.map SettlementEvent.timeless) := by rw [hsame]
    _ = (projectSettlement right).map Settlement.timeless :=
      (mapTime_projectSettlement (fun _ => ()) right).symm

theorem append (hsame : SameLog left right) {event event' : SettlementEvent ℕ}
    (hevent : event.timeless = event'.timeless) :
    SameLog (left ++ [event]) (right ++ [event']) := by
  rw [SameLog]
  rw [List.map_append, List.map_append, hsame, List.map_singleton, List.map_singleton,
    hevent]

theorem append_initiated (hsame : SameLog left right) {record record' : SettlementInput}
    (hpayload : record.payload = record'.payload) (now now' : ℕ) :
    SameLog (left ++ [MemorySettlementStore.initiatedEvent record (left.length + 1) now])
      (right ++ [MemorySettlementStore.initiatedEvent record' (right.length + 1) now']) := by
  apply hsame.append
  simp [MemorySettlementStore.initiatedEvent, SettlementEvent.timeless,
    SettlementEvent.mapTime, hpayload, hsame.length_eq]

theorem append_state (hsame : SameLog left right) (key : String) (state : TargetState)
    (details : StateDetails) (now now' : ℕ) :
    SameLog
      (left ++ [MemorySettlementStore.stateEvent key state details (left.length + 1) now])
      (right ++
        [MemorySettlementStore.stateEvent key state details (right.length + 1) now']) := by
  apply hsame.append
  simp [MemorySettlementStore.stateEvent, SettlementEvent.timeless,
    SettlementEvent.mapTime, hsame.length_eq]

end SameLog

def SameLogs (left right : MemorySettlementStore ℕ) : Prop :=
  ∀ key, SameLog (left.stream key) (right.stream key)

namespace SameLogs

variable {left right : MemorySettlementStore ℕ}

theorem get (hsame : SameLogs left right) (key : String) :
    (left.get key).map Settlement.timeless = (right.get key).map Settlement.timeless :=
  (hsame key).project

theorem save (hsame : SameLogs left right) {record record' : SettlementInput}
    (hkey : record.idempotencyKey = record'.idempotencyKey)
    (hpayload : record.payload = record'.payload) (now now' : ℕ) :
    SameLogs (left.save now record).1 (right.save now' record').1 := by
  intro key
  rw [MemorySettlementStore.stream_save, MemorySettlementStore.stream_save, hkey]
  by_cases hother : key = record'.idempotencyKey
  · rw [if_pos hother, if_pos hother]
    exact (hsame key).append_initiated hpayload now now'
  · rw [if_neg hother, if_neg hother]
    exact hsame key

theorem updateState (hsame : SameLogs left right) (key : String) (state : TargetState)
    (details : StateDetails) (now now' : ℕ) :
    SameLogs (left.updateState now key state details).1
      (right.updateState now' key state details).1 := by
  intro other
  rw [MemorySettlementStore.stream_updateState, MemorySettlementStore.stream_updateState]
  by_cases hupdated : other = key ∧ left.stream key ≠ []
  · have hupdated' : other = key ∧ right.stream key ≠ [] :=
      ⟨hupdated.1, fun hnil => hupdated.2 ((hsame key).eq_nil_iff.mpr hnil)⟩
    rw [if_pos hupdated, if_pos hupdated']
    exact (hsame other).append_state key state details now now'
  · have hupdated' : ¬ (other = key ∧ right.stream key ≠ []) := fun h =>
      hupdated ⟨h.1, fun hnil => h.2 ((hsame key).eq_nil_iff.mp hnil)⟩
    rw [if_neg hupdated, if_neg hupdated']
    exact hsame other

end SameLogs

/-- An operation on the store.  `updateUnmapped` is an `updateState` with a
state that has no event type. -/
inductive StoreOperation where
  | save (record : SettlementInput)
  | updateState (key : String) (state : TargetState) (details : StateDetails)
  | updateUnmapped
  | settleAndEnqueue (key : String) (details : StateDetails)
      (event : Option (String × SettlementNotification))

namespace LiveRecord

/-- The store, a memory store with the same history, and what the last
operation returned on either side. -/
structure System where
  store : PostgresSettlementStore
  reference : MemorySettlementStore ℕ
  returned : Option (Settlement ℕ)
  expected : Option (Settlement ℕ)

def System.init : System := ⟨.empty, .empty, none, none⟩

def step (s : System) : StoreOperation × Conditions → Option System
  | (.save record, conditions) =>
      let (store, returned) := s.store.save conditions record
      let (reference, expected) := s.reference.save conditions.now record
      some ⟨store, reference, returned, expected⟩
  | (.updateState key state details, conditions) =>
      let (store, returned) := s.store.updateState conditions key state details
      let (reference, expected) := s.reference.updateState conditions.now key state details
      some ⟨store, reference, returned, expected⟩
  | (.updateUnmapped, _) =>
      some ⟨s.store.updateUnmapped, s.reference, none, none⟩
  | (.settleAndEnqueue key details event, conditions) =>
      let (store, _, returned, _) := s.store.settleAndEnqueue conditions key details event
      let (reference, _, expected, _) :=
        s.reference.settleAndEnqueue conditions.now key details (event.map Prod.snd)
      some ⟨store, reference, returned, expected⟩

/-- A time of the database that keeps its value when it is read as a `Date`. -/
def WholeMillis (micros : ℕ) : Prop := toMicros (toMillis micros) = micros

def wholeMillis (row : ProjectionRow) : ProjectionRow :=
  { row with columns := row.columns.mapTime fun time => toMicros (toMillis time) }

/-- A statement that appends an event runs at a whole millisecond, since a rebuild writes back
the times that it has read, and the response of an update is null or truthy. -/
def PassesRebuildable (s : System) : StoreOperation × Conditions → Prop
  | (.save _, conditions) =>
      s.store.degraded = false → conditions.fails = false → WholeMillis conditions.databaseNow
  | (.updateState key _ details, conditions) | (.settleAndEnqueue key details _, conditions) =>
      s.store.degraded = false → conditions.fails = false →
        (s.store.database.projections.get key).isSome = true →
          Database.Foldable details.response ∧ WholeMillis conditions.databaseNow
  | _ => True

structure Live (s : System) : Prop where
  consistent : s.store.database.Consistent
  mirrored : SameLogs s.store.memory s.reference
  durable : s.store.degraded = false →
    ∀ key, SameLog (s.store.database.log key) (s.reference.stream key)
  whole : ∀ key, ∀ event ∈ s.store.database.log key, WholeMillis event.recordedAt
  returned : s.returned.map Settlement.timeless = s.expected.map Settlement.timeless

theorem Live.init : Live .init where
  consistent := Database.Consistent.empty
  mirrored := fun _ => rfl
  durable := fun _ _ => rfl
  whole := fun _ _ hevent => by cases hevent
  returned := rfl

/-- A row, up to times, is the record of a memory store with the same log. -/
theorem row_timeless {db : Database} (hdb : db.Consistent) {key : String}
    {reference : MemorySettlementStore ℕ}
    (hlog : SameLog (db.log key) (reference.stream key)) :
    ((db.projections.get key).map fun row => (mapProjectionRow row).columns).map
        Settlement.timeless =
      (reference.get key).map Settlement.timeless := by
  have hrow : ((db.projections.get key).map fun row =>
      (mapProjectionRow row).columns).map Settlement.timeless =
      ((db.projections.get key).map ProjectionRow.columns).map Settlement.timeless := by
    rw [Option.map_map, Option.map_map]
    rfl
  rw [hrow, hdb.projected]
  exact hlog.project

section Steps

variable {s : System} {conditions : Conditions}

/-- Falling back to memory for a `save`. -/
theorem Live.saveInMemory (hlive : Live s) (now : ℕ) (record : SettlementInput) :
    Live ⟨(s.store.saveInMemory now record).1, (s.reference.save now record).1,
      (s.store.saveInMemory now record).2, (s.reference.save now record).2⟩ where
  consistent := hlive.consistent
  mirrored := hlive.mirrored.save rfl rfl now now
  durable := fun hhealthy => by cases hhealthy
  whole := hlive.whole
  returned := (hlive.mirrored.save rfl rfl now now).get record.idempotencyKey

/-- Falling back to memory for an update. -/
theorem Live.updateInMemory (hlive : Live s) (now : ℕ) (key : String)
    (state : TargetState) (details : StateDetails) :
    Live ⟨(s.store.updateInMemory now key state details).1,
      (s.reference.updateState now key state details).1,
      (s.store.updateInMemory now key state details).2,
      (s.reference.updateState now key state details).2⟩ where
  consistent := hlive.consistent
  mirrored := hlive.mirrored.updateState key state details now now
  durable := fun hhealthy => by cases hhealthy
  whole := hlive.whole
  returned := by
    have hsame := hlive.mirrored.updateState key state details now now
    simpa only [PostgresSettlementStore.updateInMemory,
      MemorySettlementStore.updateState_snd] using hsame.get key

variable {database : Database} {key : String} {details : StateDetails} {state : TargetState}

/-- The appending statement, its copy in memory and the reference store. -/
theorem Live.of_appended (hlive : Live s) {event : SettlementEvent ℕ} {row : ProjectionRow}
    {memory reference : MemorySettlementStore ℕ}
    (happended : Database.Appended s.store.database database key event row)
    (hwhole : WholeMillis event.recordedAt) (hmirrored : SameLogs memory reference)
    (hlog : ∀ other, SameLog (if other = key then s.store.database.log other ++ [event]
      else s.store.database.log other) (reference.stream other)) :
    Live ⟨{ s.store with database := database, memory := memory }, reference,
      some (mapProjectionRow row).columns, reference.get key⟩ where
  consistent := happended.consistent
  mirrored := hmirrored
  durable := by
    intro _ other
    rw [happended.log]
    exact hlog other
  whole := by
    intro other found hfound
    rw [happended.log] at hfound
    split at hfound
    · rcases List.mem_append.mp hfound with hold | hnew
      · exact hlive.whole other found hold
      · obtain rfl := List.mem_singleton.mp hnew
        exact hwhole
    · exact hlive.whole other found hfound
  returned := by
    have hkey : SameLog (database.log key) (reference.stream key) := by
      rw [happended.log]
      exact hlog key
    rw [← row_timeless happended.consistent hkey, happended.row]
    rfl

theorem Live.save (hlive : Live s) (record : SettlementInput)
    (hwhole : s.store.degraded = false → conditions.fails = false →
      WholeMillis conditions.databaseNow) :
    Live ⟨(s.store.save conditions record).1, (s.reference.save conditions.now record).1,
      (s.store.save conditions record).2, (s.reference.save conditions.now record).2⟩ := by
  cases hdegraded : s.store.degraded with
  | true =>
      rw [PostgresSettlementStore.save, if_pos hdegraded]
      exact hlive.saveInMemory conditions.now record
  | false =>
      rw [PostgresSettlementStore.save, if_neg (by simp [hdegraded])]
      cases hfails : conditions.fails with
      | true =>
          rw [PostgresSettlementStore.attempt, if_pos hfails]
          exact hlive.saveInMemory conditions.now record
      | false =>
          obtain ⟨database, row, hstatement, happended, hpayload, hkey⟩ :=
            hlive.consistent.saveStatement conditions.databaseNow record
          rw [PostgresSettlementStore.attempt, if_neg (by simp [hfails]), hstatement]
          apply hlive.of_appended happended (hwhole hdegraded hfails)
          · exact hlive.mirrored.save hkey hpayload conditions.now conditions.now
          · intro other
            rw [MemorySettlementStore.stream_save]
            have hsame := hlive.durable hdegraded other
            by_cases hother : other = record.idempotencyKey
            · subst hother
              rw [if_pos rfl, if_pos rfl]
              exact hsame.append_initiated rfl conditions.databaseNow conditions.now
            · rw [if_neg hother, if_neg hother]
              exact hsame

/-- What both updating operations do once their statement has succeeded. -/
theorem Live.afterUpdate (hlive : Live s) (hdegraded : s.store.degraded = false)
    {row : Option ProjectionRow}
    (hstatement : s.store.database.updateStatement conditions.databaseNow key state
      details = some (database, row))
    (hrebuildable : (s.store.database.projections.get key).isSome = true →
      Database.Foldable details.response ∧ WholeMillis conditions.databaseNow) :
    Live ⟨(s.store.afterUpdate conditions key state details database row).1,
      (s.reference.updateState conditions.now key state details).1,
      (s.store.afterUpdate conditions key state details database row).2,
      (s.reference.updateState conditions.now key state details).2⟩ := by
  cases hold : s.store.database.projections.get key with
  | none =>
      rw [Database.updateStatement_of_none conditions.databaseNow state details hold]
        at hstatement
      cases hstatement
      have hnil : s.reference.stream key = [] :=
        (hlive.durable hdegraded key).eq_nil_iff.mp (hlive.consistent.log_eq_nil hold)
      rw [MemorySettlementStore.updateState_of_nil _ _ _ _ hnil]
      exact ⟨hlive.consistent, hlive.mirrored, hlive.durable, hlive.whole, rfl⟩
  | some old =>
      obtain ⟨hresponse, hwhole⟩ := hrebuildable (by rw [hold]; rfl)
      obtain ⟨database', row', hstatement', happended⟩ :=
        hlive.consistent.updateStatement conditions.databaseNow state hresponse hold
      rw [hstatement'] at hstatement
      cases hstatement
      rw [MemorySettlementStore.updateState_snd]
      apply hlive.of_appended happended hwhole
      · exact hlive.mirrored.updateState key state details conditions.now conditions.now
      · intro other
        have hsame := hlive.durable hdegraded
        rw [MemorySettlementStore.stream_updateState]
        by_cases hother : other = key
        · subst hother
          have hlogged : s.store.database.log other ≠ [] := by
            intro hnil
            have hprojected := hlive.consistent.projected other
            rw [hold, hnil] at hprojected
            cases hprojected
          have hstream : s.reference.stream other ≠ [] := fun hnil =>
            hlogged ((hsame other).eq_nil_iff.mpr hnil)
          rw [if_pos rfl, if_pos ⟨rfl, hstream⟩]
          exact (hsame other).append_state other state details conditions.databaseNow
            conditions.now
        · rw [if_neg hother, if_neg fun h => hother h.1]
          exact hsame other

theorem Live.updateState (hlive : Live s)
    (hrebuildable : s.store.degraded = false → conditions.fails = false →
      (s.store.database.projections.get key).isSome = true →
        Database.Foldable details.response ∧ WholeMillis conditions.databaseNow) :
    Live ⟨(s.store.updateState conditions key state details).1,
      (s.reference.updateState conditions.now key state details).1,
      (s.store.updateState conditions key state details).2,
      (s.reference.updateState conditions.now key state details).2⟩ := by
  cases hdegraded : s.store.degraded with
  | true =>
      rw [PostgresSettlementStore.updateState, if_pos hdegraded]
      exact hlive.updateInMemory conditions.now key state details
  | false =>
      rw [PostgresSettlementStore.updateState, if_neg (by simp [hdegraded])]
      cases hfails : conditions.fails with
      | true =>
          rw [PostgresSettlementStore.attempt, if_pos hfails]
          exact hlive.updateInMemory conditions.now key state details
      | false =>
          rw [PostgresSettlementStore.attempt, if_neg (by simp [hfails])]
          cases hstatement : s.store.database.updateStatement conditions.databaseNow key
              state details with
          | none => exact hlive.updateInMemory conditions.now key state details
          | some result =>
              exact hlive.afterUpdate hdegraded hstatement (hrebuildable hdegraded hfails)

/-- Writing to the outbox touches neither the log nor a row. -/
theorem Live.outbox (hlive : Live s) (outbox : List (String × SettlementNotification)) :
    Live { s with store := { s.store with
      database := { s.store.database with outbox := outbox } } } where
  consistent := ⟨hlive.consistent.projected, hlive.consistent.present,
    hlive.consistent.numbered, hlive.consistent.version, hlive.consistent.keyed,
    hlive.consistent.responses⟩
  mirrored := hlive.mirrored
  durable := hlive.durable
  whole := hlive.whole
  returned := hlive.returned

theorem Live.settleAndEnqueue (hlive : Live s) (event : Option (String × SettlementNotification))
    (hrebuildable : s.store.degraded = false → conditions.fails = false →
      (s.store.database.projections.get key).isSome = true →
        Database.Foldable details.response ∧ WholeMillis conditions.databaseNow) :
    Live ⟨(s.store.settleAndEnqueue conditions key details event).1,
      (s.reference.updateState conditions.now key .settled details).1,
      (s.store.settleAndEnqueue conditions key details event).2.2.1,
      (s.reference.updateState conditions.now key .settled details).2⟩ := by
  cases hdegraded : s.store.degraded with
  | true =>
      rw [PostgresSettlementStore.settleAndEnqueue, if_pos hdegraded]
      exact hlive.updateInMemory conditions.now key .settled details
  | false =>
      rw [PostgresSettlementStore.settleAndEnqueue, if_neg (by simp [hdegraded])]
      cases hfails : conditions.fails with
      | true =>
          rw [PostgresSettlementStore.attempt, if_pos hfails]
          exact hlive.updateInMemory conditions.now key .settled details
      | false =>
          rw [PostgresSettlementStore.attempt, if_neg (by simp [hfails]),
            Database.settleTransaction, Database.settleAt, ← Database.updateStatement]
          cases hstatement : s.store.database.updateStatement conditions.databaseNow key
              .settled details with
          | none => exact hlive.updateInMemory conditions.now key .settled details
          | some result =>
              obtain ⟨database, row⟩ := result
              have hafter := hlive.afterUpdate hdegraded hstatement
                (hrebuildable hdegraded hfails)
              cases row with
              | none => exact hafter
              | some row => exact hafter.outbox (database.outbox ++ event.toList)

end Steps

theorem Live.step {s s' : System} {action : StoreOperation × Conditions}
    (hlive : Live s) (hmeets : PassesRebuildable s action)
    (hstep : step s action = some s') : Live s' := by
  obtain ⟨operation, conditions⟩ := action
  cases operation with
  | save record =>
      cases hstep
      exact hlive.save record hmeets
  | updateState key state details =>
      cases hstep
      exact hlive.updateState hmeets
  | updateUnmapped =>
      cases hstep
      exact ⟨hlive.consistent, hlive.mirrored, (fun hhealthy => by cases hhealthy), hlive.whole,
        rfl⟩
  | settleAndEnqueue key details event =>
      cases hstep
      exact hlive.settleAndEnqueue event hmeets

theorem Live.reaches {s : System}
    (hreach : Reaches LiveRecord.step PassesRebuildable .init s) : Live s :=
  hreach.preserves (fun _ _ _ hlive hmeets hstep => hlive.step hmeets hstep) Live.init

/-- What a rebuild writes where the fold is the row that is there. -/
theorem rebuiltRow_mapProjectionRow {row : ProjectionRow}
    (hresponse : responseParameter row.columns.response = row.columns.response) :
    PostgresSettlementStore.rebuiltRow (mapProjectionRow row).columns row.version =
      wholeMillis row := by
  obtain ⟨columns, version⟩ := row
  simpa [PostgresSettlementStore.rebuiltRow, mapProjectionRow, wholeMillis,
    Settlement.mapTime] using hresponse

section Reads

variable {s : System}

theorem Live.folds (hlive : Live s) (key : String) :
    (s.store.database.projections.get key).map
        (fun row => (mapProjectionRow row).columns) =
      projectSettlement (s.store.database.selectLog key) := by
  have hfolded := (Database.consistent_iff _).mp hlive.consistent key
  exact hfolded.projectSettlement_selectLog.symm

theorem Live.length_selectLog (hlive : Live s) (key : String) :
    (s.store.database.selectLog key).length = (s.store.database.log key).length := by
  rw [(hlive.consistent.numbered key).selectLog, List.length_map]

theorem Live.numbered (hlive : Live s) (key : String) :
    (s.store.database.selectLog key).map SettlementEvent.seq =
      List.range' 1 (s.store.database.selectLog key).length := by
  rw [hlive.length_selectLog, (hlive.consistent.numbered key).selectLog, List.map_map]
  exact hlive.consistent.numbered key

theorem Live.get (hlive : Live s) (key : String) :
    (s.store.get key).map Settlement.timeless =
      (s.reference.get key).map Settlement.timeless := by
  cases hdegraded : s.store.degraded with
  | true =>
      rw [PostgresSettlementStore.get, if_pos hdegraded]
      exact hlive.mirrored.get key
  | false =>
      rw [PostgresSettlementStore.get, if_neg (by simp [hdegraded])]
      exact row_timeless hlive.consistent (hlive.durable hdegraded key)

/-- The row a rebuild writes is the row that is there, with its timestamps read
and written back. -/
theorem Live.rebuildProjection (hlive : Live s) (key other : String) :
    (s.store.rebuildProjection key).1.database.projections.get other =
      if s.store.degraded = false ∧ other = key then
        (s.store.database.projections.get other).map wholeMillis
      else s.store.database.projections.get other := by
  cases hdegraded : s.store.degraded with
  | true =>
      rw [PostgresSettlementStore.rebuildProjection, if_pos hdegraded]
      rfl
  | false =>
      rw [PostgresSettlementStore.rebuildProjection, if_neg (by simp [hdegraded]),
        PostgresSettlementStore.getEventLog, if_neg (by simp [hdegraded])]
      simp only [← hlive.folds, hlive.length_selectLog, true_and]
      cases hrow : s.store.database.projections.get key with
      | none =>
          change s.store.database.projections.get other = _
          split
          · next hother =>
              subst hother
              rw [hrow]
              rfl
          · rfl
      | some row =>
          have hkey := hlive.consistent.keyed key row hrow
          have hversion := hlive.consistent.version key row hrow
          have hresponse := hlive.consistent.responses key row hrow
          have hrebuilt : PostgresSettlementStore.rebuiltRow (mapProjectionRow row).columns
              (s.store.database.log key).length = wholeMillis row := by
            rw [← hversion]
            exact rebuiltRow_mapProjectionRow hresponse
          change ((s.store.database.projections.set (mapProjectionRow row).columns.idempotencyKey
            (PostgresSettlementStore.rebuiltRow (mapProjectionRow row).columns
              (s.store.database.log key).length)).get other) = _
          rw [hrebuilt, InsertionMap.get_set]
          change (if other = row.columns.idempotencyKey then _ else _) = _
          rw [hkey]
          split
          · next hother =>
              subst hother
              rw [hrow]
              rfl
          · rfl

theorem mapProjectionRow_wholeMillis (row : ProjectionRow) :
    mapProjectionRow (wholeMillis row) = mapProjectionRow row := by
  have hmillis : ∀ time, toMillis (toMicros (toMillis time)) = toMillis time := by
    intro time
    simp only [toMillis, toMicros]
    omega
  simp [mapProjectionRow, wholeMillis, Settlement.mapTime, hmillis]

variable {key : String} {row : ProjectionRow}

/-- A rebuild returns the row that is there. -/
theorem rebuildProjection_of_folded {db : Database}
    (hfolded : Database.Folded key (db.log key) (db.projections.get key))
    (hrow : db.projections.get key = some row) (memory : MemorySettlementStore ℕ) :
    (PostgresSettlementStore.rebuildProjection ⟨db, memory, false⟩ key).2 =
      some (mapProjectionRow row).columns := by
  have hproject : projectSettlement (db.selectLog key) = some (mapProjectionRow row).columns := by
    rw [hfolded.projectSettlement_selectLog, hrow]
    rfl
  have hlength : (db.selectLog key).length = row.version := by
    have hseqs := congrArg List.length (hfolded.selectLog_seq hrow)
    rwa [List.length_map, List.length_range'] at hseqs
  have hrebuilt := rebuiltRow_mapProjectionRow (hfolded.responses row hrow)
  rw [PostgresSettlementStore.rebuildProjection, if_neg (by simp),
    PostgresSettlementStore.getEventLog, if_neg (by simp)]
  simp only [hproject, hlength, hrebuilt, mapProjectionRow_wholeMillis]

/-- The times of a row are those of events of its log. -/
theorem Live.wholeMillis (hlive : Live s) (hrow : s.store.database.projections.get key = some row) :
    LiveRecord.wholeMillis row = row := by
  have hprojected := hlive.consistent.projected key
  rw [hrow, Option.map_some] at hprojected
  have hlog : (s.store.database.log key).map
      (SettlementEvent.mapTime fun time => toMicros (toMillis time)) =
      s.store.database.log key := by
    calc
      (s.store.database.log key).map
          (SettlementEvent.mapTime fun time => toMicros (toMillis time)) =
          (s.store.database.log key).map id := by
        refine List.map_congr_left fun event hevent => ?_
        have hwhole := hlive.whole key event hevent
        rw [WholeMillis] at hwhole
        rw [SettlementEvent.mapTime, hwhole]
        rfl
      _ = s.store.database.log key := List.map_id _
  have htimes := mapTime_projectSettlement (fun time => toMicros (toMillis time))
    (s.store.database.log key)
  rw [hlog, ← hprojected, Option.map_some] at htimes
  rw [LiveRecord.wholeMillis, Option.some.inj htimes]

end Reads

end LiveRecord

end X402Facilitator
