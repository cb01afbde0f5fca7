import X402Facilitator.Cqrs.Checkpoint

/-!
# A worker that has caught up

`CatchesUp` says that whenever the worker finds no new events, or measures no
lag, every key has the row of its whole log.  It is refuted even for runs in
which no query fails.  It holds of those that leave no event behind and write a
row over one with the same fixed columns.
-/

namespace X402Facilitator.ProjectionWorker

open X402Facilitator.Execution

/-- The query of the step, if any, succeeds, and no batch is broken off. -/
def querySucceeds (s : System) : Action → Bool
  | .readFails => false
  | .fetchFails => false
  | .write outcome =>
      match s.phase with
      | .writing group projection _ _ _ =>
          decide (outcome = .succeeds) &&
            (s.readModel.writeProjection projection group.maxSeq).isSome
      | _ => true
  | .updateCheckpoint outcome => decide (outcome = .succeeds)
  | .restart => s.phase.isIdle
  | _ => true

/-- `getMaxSequence`. -/
def maxSequence (db : Database) : ℕ :=
  db.events.foldl (fun seq row => max seq row.event.seq) 0

/-- Between two batches, nothing is selected after the offset or the lag is
zero. -/
def CaughtUp (s : System) : Prop :=
  s.phase = .idle ∧
    (eventsAfter s.database s.currentOffset = [] ∨
      maxSequence s.database = s.currentOffset)

/-- The row of the key is the projection of its whole log on every column. -/
def ShowsLog (s : System) (key : String) : Prop :=
  ∃ row record, s.readModel.get key = some row ∧
    projectSettlement (s.database.selectLog key) = some record ∧
      row.columns = record.withoutResponse

/-- In the runs without failing queries whose steps satisfy `meets`. -/
def CatchesUp (batchSize : ℕ) (meets : System → Action → Prop) : Prop :=
  ∀ s, Reaches (step batchSize) (fun state action =>
      querySucceeds state action = true ∧ meets state action) .init s →
    CaughtUp s → ∀ key, s.database.log key ≠ [] → ShowsLog s key

/-- A row is written over one with the same fixed columns. -/
def KeepsFixedColumns (s : System) : Action → Prop
  | .write _ =>
      match s.phase with
      | .writing group projection _ _ _ =>
          ∀ record ∈ projection, ∀ row ∈ s.readModel.get group.key,
            row.columns.fixedColumns = record.fixedColumns
      | _ => True
  | _ => True

/-- No event is left behind, and no column either. -/
def KeepsUp (s : System) (action : Action) : Prop :=
  LeavesNothingBehind s action ∧ KeepsFixedColumns s action

def fetchedHistory {db : Database} (hdb : db.Agrees) (key : String) : KeyHistory ℕ where
  key := key
  events := db.selectLog key
  keyed := by
    intro event hevent
    rw [(hdb.numbered key).selectLog] at hevent
    obtain ⟨logged, hlogged, rfl⟩ := List.mem_map.mp hevent
    exact hdb.addressed key logged hlogged

structure Shown (s : System) : Prop where
  rows : ∀ key, (s.readModel.get key).map ReadModelRow.columns =
    (projectSettlement ((s.database.selectLog key).take (s.included key))).map
      Settlement.withoutResponse
  fetched : ∀ group projection count groups lastSeq,
    s.phase = .writing group projection count groups lastSeq →
      projection = projectSettlement ((s.database.selectLog group.key).take count)

theorem Shown.init : Shown .init where
  rows := fun _ => by simp [System.init]
  fetched := fun _ _ _ _ _ hphase => by cases hphase

section Steps

variable {batchSize : ℕ} {s s' : System} {operation : AppendOperation} {now : ℕ}

/-- What has been read of a log does not change when an event is appended. -/
theorem take_selectLog_writes (hdb : s.database.Agrees) (key : String) {count : ℕ}
    (hcount : count ≤ (s.database.log key).length) :
    (((operation.writes s.database ((s.database.log operation.key).length + 1)
      now).1.selectLog key).take count) = (s.database.selectLog key).take count := by
  rw [(hdb.writes.numbered key).selectLog, (hdb.numbered key).selectLog]
  rcases Database.log_writes s.database operation
      ((s.database.log operation.key).length + 1) now key with hsame | ⟨-, -, hlonger⟩
  · rw [hsame]
  · rw [hlonger, List.map_append]
    apply List.take_append_of_le_length
    rw [List.length_map]
    exact hcount

theorem Shown.append (hsound : Sound s) (hshown : Shown s)
    (hstep : step batchSize s (.append operation now) = some s') : Shown s' := by
  obtain rfl := step_append hsound.agrees hstep
  exact
    { rows := by
        intro key
        change (s.readModel.get key).map _ = _
        rw [take_selectLog_writes hsound.agrees key (hsound.included_le key)]
        exact hshown.rows key
      fetched := by
        intro group projection count groups lastSeq hphase
        rw [take_selectLog_writes hsound.agrees group.key
          (hsound.fetched _ _ _ _ _ hphase).2.2.1]
        exact hshown.fetched group projection count groups lastSeq hphase }

/-- A step that leaves the log and the rows alone. -/
theorem Shown.move (hshown : Shown s) (hdatabase : s'.database = s.database)
    (hreadModel : s'.readModel = s.readModel) (hincluded : s'.included = s.included)
    (hphase : ∀ group projection count groups lastSeq,
      s'.phase ≠ .writing group projection count groups lastSeq) : Shown s' where
  rows := by
    intro key
    rw [hdatabase, hreadModel, hincluded]
    exact hshown.rows key
  fetched := fun group projection count groups lastSeq hwriting =>
    absurd hwriting (hphase group projection count groups lastSeq)

/-- The columns of an upserted row, over a row of the same history. -/
theorem columns_upsert (history : KeyHistory ℕ) {count count' lastSeq : ℕ}
    {record : Settlement ℕ} {excluded : ReadModelRow ℕ} {old : Option (ReadModelRow ℕ)}
    (hold : old.map ReadModelRow.columns =
      (history.projected count).map Settlement.withoutResponse)
    (hrecord : history.projected count' = some record)
    (hexcluded : record.readModelRow lastSeq = some excluded)
    (hfixed : ∀ row ∈ old, row.columns.fixedColumns = record.fixedColumns) :
    (ReadModelRow.upsert old excluded).columns = record.withoutResponse := by
  obtain ⟨hcolumns, -⟩ := Settlement.columns_readModelRow hexcluded
  cases old with
  | none => exact hcolumns
  | some row =>
      obtain ⟨before, hbefore, hrow⟩ := Option.map_eq_some_iff.mp hold.symm
      obtain ⟨full, hfull⟩ := Option.isSome_iff_exists.mp
        (history.isSome_projected_length (Option.isSome_of_eq_some hbefore))
      rw [← hcolumns]
      apply (ReadModelRow.columns_onConflict_eq_iff row excluded).mpr
      refine ⟨?_, ?_, ?_⟩
      · calc
          row.idempotencyKey = before.idempotencyKey :=
            (congrArg Settlement.idempotencyKey hrow).symm
          _ = history.key := history.key_projected hbefore
          _ = record.idempotencyKey := (history.key_projected hrecord).symm
          _ = excluded.idempotencyKey := (congrArg Settlement.idempotencyKey hcolumns).symm
      · calc
          row.createdAt = before.createdAt := (congrArg Settlement.createdAt hrow).symm
          _ = full.createdAt := history.createdAt_projected hbefore hfull
          _ = record.createdAt := (history.createdAt_projected hrecord hfull).symm
          _ = excluded.createdAt := (congrArg Settlement.createdAt hcolumns).symm
      · rw [hcolumns]
        exact hfixed row rfl

/-- A group written over a row with the same fixed columns. -/
theorem Shown.wrote (hsound : Sound s) (hshown : Shown s) {group : EventGroup}
    {projection : Option (Settlement ℕ)} {count lastSeq lastSeq' : ℕ}
    {groups : List EventGroup} {table : ReadModel ℕ}
    (hphase : s.phase = .writing group projection count groups lastSeq)
    (hfixed : ∀ record ∈ projection, ∀ row ∈ s.readModel.get group.key,
      row.columns.fixedColumns = record.fixedColumns)
    (hwritten : s.readModel.writeProjection projection group.maxSeq = some table) :
    Shown { s.wrote group projection count table with
      phase := .fetching groups lastSeq' } where
  rows := by
    intro key
    change (table.get key).map ReadModelRow.columns =
      (projectSettlement ((s.database.selectLog key).take
        ((s.wrote group projection count table).included key))).map
          Settlement.withoutResponse
    have hfetched := hshown.fetched _ _ _ _ _ hphase
    cases projection with
    | none =>
        rw [ReadModel.writeProjection_none] at hwritten
        cases hwritten
        exact hshown.rows key
    | some record =>
        rw [ReadModel.writeProjection_some] at hwritten
        obtain ⟨excluded, hexcluded, rfl⟩ := Option.map_eq_some_iff.mp hwritten
        have hkey : record.idempotencyKey = group.key :=
          (fetchedHistory hsound.agrees group.key).key_projected hfetched.symm
        have hexcludedKey : excluded.idempotencyKey = group.key := by
          rw [← hkey]
          obtain ⟨hcolumns, -⟩ := Settlement.columns_readModelRow hexcluded
          exact congrArg Settlement.idempotencyKey hcolumns
        change _ = (projectSettlement ((s.database.selectLog key).take
          (Function.update s.included group.key count key))).map _
        rw [hexcludedKey, InsertionMap.get_set]
        by_cases hsame : key = group.key
        · subst hsame
          rw [if_pos rfl, Function.update_self, ← hfetched, Option.map_some,
            Option.map_some]
          congr 1
          exact columns_upsert (fetchedHistory hsound.agrees group.key)
            (hshown.rows group.key) hfetched.symm hexcluded (hfixed record rfl)
        · rw [if_neg hsame, Function.update_of_ne hsame]
          exact hshown.rows key
  fetched := fun _ _ _ _ _ hwriting => by cases hwriting

theorem Shown.step (hsound : Sound s) (hshown : Shown s) {action : Action}
    (hquery : querySucceeds s action = true) (hfixed : KeepsFixedColumns s action)
    (hstep : step batchSize s action = some s') : Shown s' := by
  cases action with
  | append operation now => exact hshown.append hsound hstep
  | read order =>
      rw [ProjectionWorker.step] at hstep
      split at hstep
      · split at hstep
        · dsimp only at hstep
          split at hstep
          · cases hstep
            exact hshown
          · cases hstep
            exact hshown.move rfl rfl rfl (fun _ _ _ _ _ hwriting => by cases hwriting)
        · cases hstep
      · cases hstep
  | readFails => cases hquery
  | fetch =>
      rw [ProjectionWorker.step] at hstep
      split at hstep
      · cases hstep
        exact
          { rows := hshown.rows
            fetched := by
              intro _ _ _ _ _ hwriting
              cases hwriting
              exact (congrArg projectSettlement (List.take_length)).symm }
      · cases hstep
  | fetchFails => cases hquery
  | write outcome =>
      cases hphase : s.phase with
      | idle | fetching groups lastSeq => rw [ProjectionWorker.step, hphase] at hstep; cases hstep
      | writing group projection count groups lastSeq =>
          rw [querySucceeds, hphase] at hquery
          rw [KeepsFixedColumns, hphase] at hfixed
          obtain ⟨hsucceeds, hsome⟩ : outcome = .succeeds ∧
              (s.readModel.writeProjection projection group.maxSeq).isSome = true := by
            simpa using hquery
          rcases step_write hphase hstep with ⟨table, hwritten, -, rfl⟩ |
            ⟨table, -, hlost, -⟩ | ⟨hfails | hnone, -⟩
          · exact hshown.wrote hsound hphase hfixed hwritten
          · rw [hlost] at hsucceeds
            cases hsucceeds
          · rw [hfails] at hsucceeds
            cases hsucceeds
          · rw [hnone] at hsome
            cases hsome
  | updateCheckpoint outcome =>
      obtain ⟨lastSeq, checkpoint, currentOffset, -, -, -, rfl⟩ :=
        step_updateCheckpoint hstep
      exact hshown.move rfl rfl rfl (fun _ _ _ _ _ hwriting => by cases hwriting)
  | restart =>
      cases hstep
      exact hshown.move rfl rfl rfl (fun _ _ _ _ _ hwriting => by cases hwriting)

end Steps

structure Following (s : System) : Prop where
  tracked : Tracked s
  shown : Shown s

theorem following_of_reaches {batchSize : ℕ} {s : System}
    (hreach : Reaches (step batchSize) (fun state action =>
      querySucceeds state action = true ∧ KeepsUp state action) .init s) : Following s := by
  apply hreach.preserves
  · intro before action after hfollowing hmeets hstep
    obtain ⟨hquery, hleaves, hfixed⟩ := hmeets
    obtain ⟨⟨hsound, hcovered⟩, hshown⟩ := hfollowing
    exact
      { tracked := ⟨hsound.step hstep, hcovered.step hsound hleaves hstep⟩
        shown := hshown.step hsound hquery hfixed hstep }
  · exact ⟨⟨Sound.init, Covered.init⟩, Shown.init⟩

theorem le_maxSequence {db : Database} {row : EventRow} (hrow : row ∈ db.events) :
    row.event.seq ≤ maxSequence db := by
  have hfold : maxSequence db =
      (db.events.map fun row => row.event).foldl (fun seq event => max seq event.seq) 0 := by
    rw [maxSequence, List.foldl_map]
  rw [hfold]
  exact (Database.le_foldl_max _ 0).2 row.event (List.mem_map_of_mem hrow)

/-- A worker that has caught up has passed every event. -/
theorem CaughtUp.seq_le {s : System} (hcaughtUp : CaughtUp s) {key : String}
    {event : SettlementEvent ℕ} (hevent : event ∈ s.database.log key) :
    event.seq ≤ s.currentOffset := by
  rcases hcaughtUp.2 with hnone | hmax
  · by_contra hnot
    have hmem := mem_eventsAfter.mpr ⟨Nat.lt_of_not_le hnot, event, hevent, rfl⟩
    rw [hnone] at hmem
    cases hmem
  · obtain ⟨row, hrow, rfl⟩ := List.mem_map.mp hevent
    rw [← hmax]
    exact le_maxSequence (List.mem_filter.mp hrow).1

/-- The last event of a log is numbered by its length. -/
theorem exists_last_seq {db : Database} (hdb : db.Agrees) {key : String}
    (hne : db.log key ≠ []) : ∃ event ∈ db.log key, event.seq = (db.log key).length := by
  have hlast : (db.log key).length ∈ (db.log key).map SettlementEvent.seq := by
    rw [hdb.numbered key, List.mem_range'_1]
    have hpos := List.length_pos_iff.mpr hne
    omega
  obtain ⟨event, hevent, hseq⟩ := List.mem_map.mp hlast
  exact ⟨event, hevent, hseq⟩

/-- In the runs without failing queries that leave no event behind and keep the
fixed columns, a worker that has caught up shows every log. -/
theorem catchesUp_keepsUp (batchSize : ℕ) : CatchesUp batchSize KeepsUp := by
  intro s hreach hcaughtUp key hne
  obtain ⟨⟨hsound, hcovered⟩, hshown⟩ := following_of_reaches hreach
  obtain ⟨last, hlast, hseq⟩ := exists_last_seq hsound.agrees hne
  have hpassed : last.seq ≤ s.passed :=
    (hcaughtUp.seq_le hlast).trans ((le_max_left _ _).trans (le_max_right _ _))
  have hincluded : (s.database.selectLog key).length ≤ s.included key := by
    rw [hsound.agrees.length_selectLog, ← hseq]
    exact hcovered.includes hcaughtUp.1 key last hlast hpassed
  have hrow := hshown.rows key
  rw [List.take_of_length_le hincluded, hsound.agrees.projectSettlement_selectLog] at hrow
  obtain ⟨record, hrecord⟩ := Option.isSome_iff_exists.mp
    (projectSettlement_isSome hne (hsound.agrees.known key))
  rw [hrecord] at hrow
  obtain ⟨row, hget, hcolumns⟩ := Option.map_eq_some_iff.mp hrow
  refine ⟨row, record.mapTime toMillis, hget, ?_, hcolumns⟩
  rw [hsound.agrees.projectSettlement_selectLog, hrecord]
  rfl

def startedLater : List Action :=
  [.append (saveOf "order-1") 0, .read [("order-1", 1)], .fetch, .write .succeeds,
    .updateCheckpoint .succeeds, .append (saveOf "order-2") 0]

/-- The first event of the second settlement is numbered like the checkpoint: the
worker finds no new events and never projects it. -/
theorem not_catchesUp_anyStep : ¬ ∀ batchSize, CatchesUp batchSize anyStep := by
  intro hcatchesUp
  have hrun : (run (guarded (step 100) querySucceeds) .init startedLater).map
      (fun s => (s.phase.isIdle, eventsAfter s.database s.currentOffset,
        (s.database.log "order-2").length, (s.readModel.get "order-2").isSome)) =
      some (true, [], 1, false) := by
    decide +kernel
  obtain ⟨s, hs, hobserved⟩ := Option.map_eq_some_iff.mp hrun
  simp only [Prod.mk.injEq] at hobserved
  obtain ⟨hidle, hnone, hlength, hrow⟩ := hobserved
  have hreach : Reaches (step 100) (fun state action =>
      querySucceeds state action = true ∧ anyStep state action) .init s :=
    (reaches_of_run_guarded hs).mono fun _ _ hmeets => ⟨hmeets, trivial⟩
  have hcaughtUp : CaughtUp s := ⟨Phase.eq_idle_of_isIdle hidle, Or.inl hnone⟩
  have hne : s.database.log "order-2" ≠ [] := by
    intro hnil
    rw [hnil] at hlength
    cases hlength
  obtain ⟨row, record, hget, -⟩ := hcatchesUp 100 s hreach hcaughtUp "order-2" hne
  rw [hget] at hrow
  cases hrow

end X402Facilitator.ProjectionWorker
