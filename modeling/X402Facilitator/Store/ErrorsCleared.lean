import Mathlib.Data.List.DropRight
import X402Facilitator.Cqrs.ReadModel
import X402Facilitator.Store.Appends
import X402Facilitator.Store.LiveRecord
import X402Facilitator.Store.Reconciliation

/-!
# A settlement clears the errors of its record

The callers that settle a record pass null for the two error fields.  Each of
the three merges reads null as "keep the old value", so an error stays until the
next initiated event: `ErrorsAreCleared` is refuted for arbitrary histories, and
holds exactly of the ones with no error since their last initiated event.
-/

namespace X402Facilitator

open X402Facilitator.Execution

section Fold

variable {Time : Type*}

def Settlement.NullErrors (record : Settlement Time) : Prop :=
  record.errorReason = none ∧ record.errorMessage = none

def SettlementEvent.CarriesError (event : SettlementEvent Time) : Prop :=
  (stateByEventType event.eventType).isSome ∧
    ¬ (event.payload.errorReason = none ∧ event.payload.errorMessage = none)

def sinceInitiated (log : List (SettlementEvent Time)) : List (SettlementEvent Time) :=
  log.rtakeWhile fun event => event.eventType ≠ .initiated

/-- No event after the last initiated one carries an error. -/
def NoErrorSinceInitiated (log : List (SettlementEvent Time)) : Prop :=
  ∀ event ∈ sinceInitiated log, ¬ event.CarriesError

def EndsSettled (log : List (SettlementEvent Time)) : Prop :=
  log.getLast?.map SettlementEvent.eventType = some .settled

theorem nullErrors_merge_iff (base : Settlement Time) (state : SettlementState)
    (payload : EventPayload) (recordedAt : Time) :
    (base.merge state payload recordedAt).NullErrors ↔
      (payload.errorReason = none ∧ payload.errorMessage = none) ∧ base.NullErrors := by
  simp only [Settlement.NullErrors, Settlement.merge, Option.or_eq_none_iff]
  tauto

variable {event : SettlementEvent Time}

theorem noErrorSinceInitiated_append_initiated (log : List (SettlementEvent Time))
    (hinitiated : event.eventType = .initiated) : NoErrorSinceInitiated (log ++ [event]) := by
  rw [NoErrorSinceInitiated, sinceInitiated,
    List.rtakeWhile_concat_neg _ _ _ (by simp [hinitiated])]
  intro other hother
  cases hother

theorem noErrorSinceInitiated_append (log : List (SettlementEvent Time))
    (hnot : event.eventType ≠ .initiated) : NoErrorSinceInitiated (log ++ [event]) ↔
      NoErrorSinceInitiated log ∧ ¬ event.CarriesError := by
  rw [NoErrorSinceInitiated, sinceInitiated,
    List.rtakeWhile_concat_pos _ _ _ (by simp [hnot])]
  simp only [List.mem_append, List.mem_singleton, or_imp, forall_and, forall_eq]
  rfl

/-- The errors of the fold are null exactly when no event since the last
initiated one carried an error. -/
theorem nullErrors_projectSettlement_iff (log : List (SettlementEvent Time)) :
    (∀ record ∈ projectSettlement log, record.NullErrors) ↔ NoErrorSinceInitiated log := by
  induction log using List.reverseRecOn with
  | nil =>
      constructor
      · intro _ event hevent
        cases hevent
      · intro _ record hrecord
        cases hrecord
  | append_singleton log event ih =>
      rw [projectSettlement_append]
      by_cases hinitiated : event.eventType = .initiated
      · have hstarted := noErrorSinceInitiated_append_initiated log hinitiated
        obtain ⟨eventType, version, payload, seq, recordedAt⟩ := event
        obtain rfl : eventType = .initiated := hinitiated
        rw [applyEvent_initiated]
        refine ⟨fun _ => hstarted, fun _ record hrecord => ?_⟩
        cases hrecord
        exact ⟨rfl, rfl⟩
      · rw [noErrorSinceInitiated_append log hinitiated, SettlementEvent.CarriesError, ← ih]
        cases hstate : stateByEventType event.eventType with
        | none =>
            rw [applyEvent_of_none _ hstate]
            simp
        | some state =>
            rw [applyEvent_terminal _ hinitiated hstate]
            simp only [Option.mem_def, Option.some.injEq, forall_eq', nullErrors_merge_iff,
              Option.isSome_some, true_and, not_not]
            rw [and_comm]
            apply and_congr_left
            intro _
            cases projectSettlement log with
            | none =>
                constructor
                · intro _ record hrecord
                  cases hrecord
                · intro _
                  exact ⟨rfl, rfl⟩
            | some base => simp

theorem nullErrors_mapTime {Time' : Type*} (convert : Time → Time')
    (record : Settlement Time) :
    (record.mapTime convert).NullErrors ↔ record.NullErrors := Iff.rfl

end Fold

namespace ErrorsCleared

def storeOperation (key eventId : String) (resolution : Resolution) : StoreOperation :=
  match resolution.state with
  | .settled => .settleAndEnqueue key resolution.details
      (resolution.notification.map fun event => (eventId, event))
  | state => .updateState key state resolution.details

/-- An operation on the stores, or what a sweep does to one record it listed. -/
inductive Operation where
  | store (operation : StoreOperation)
  | reconcile (config : ReconcileConfig) (rpcCall : String → String → RpcAnswer)
      (record : Settlement ℕ) (eventId : String)

def step (s : LiveRecord.System) : Operation × Conditions → Option LiveRecord.System
  | (.store operation, conditions) => LiveRecord.step s (operation, conditions)
  | (.reconcile config rpcCall record eventId, conditions) =>
      match resolve config rpcCall record with
      | none => some s
      | some resolution =>
          LiveRecord.step s
            (storeOperation record.idempotencyKey eventId resolution, conditions)

/-- The histories of one key: in the memory store, in the database and in the
local copy that a degraded store serves. -/
def histories (s : LiveRecord.System) (key : String) : List (List (SettlementEvent ℕ)) :=
  [s.reference.stream key, s.store.database.log key, s.store.memory.stream key]

/-- After a settled event the record has null errors in either store, in the
projection row and in the row that a projection worker writes. -/
structure ErrorsAreCleared (s : LiveRecord.System) (key : String) : Prop where
  memory : EndsSettled (s.reference.stream key) →
    ∀ record ∈ s.reference.get key, record.NullErrors
  row : EndsSettled (s.store.database.log key) →
    ∀ row ∈ s.store.database.projections.get key, row.columns.NullErrors
  readModel : EndsSettled (s.store.database.log key) →
    ∀ (table table' : ReadModel ℕ) (lastSeq : ℕ),
      table.writeProjection (projectSettlement (s.store.database.selectLog key)) lastSeq =
        some table' →
      ∀ row ∈ table'.get key, row.columns.NullErrors
  degraded : EndsSettled (s.store.memory.stream key) →
    ∀ record ∈ s.store.memory.get key, record.NullErrors

/-- Of every history of the key that ends settled, no event since its last
initiated one carries an error. -/
def SettlesWithoutErrors (s : LiveRecord.System) (key : String) : Prop :=
  ∀ log ∈ histories s key, EndsSettled log → NoErrorSinceInitiated log

variable {s s' : LiveRecord.System} {db : Database} {lastSeq : ℕ} {table table' : ReadModel ℕ}

theorem agrees_liveStep {action : StoreOperation × Conditions} (hdb : s.store.database.Agrees)
    (hstep : LiveRecord.step s action = some s') : s'.store.database.Agrees := by
  obtain ⟨operation, conditions⟩ := action
  cases operation with
  | save record =>
      cases hstep
      exact hdb.of_written (PostgresSettlementStore.written_save hdb conditions record)
  | updateState key state details =>
      cases hstep
      exact hdb.of_written
        (PostgresSettlementStore.written_updateState hdb conditions key state details)
  | updateUnmapped =>
      cases hstep
      exact hdb
  | settleAndEnqueue key details event =>
      cases hstep
      exact hdb.of_written
        (PostgresSettlementStore.written_settleAndEnqueue hdb conditions key details event)

theorem agrees_step {action : Operation × Conditions} (hdb : s.store.database.Agrees)
    (hstep : step s action = some s') : s'.store.database.Agrees := by
  obtain ⟨operation, conditions⟩ := action
  cases operation with
  | store operation => exact agrees_liveStep hdb hstep
  | reconcile config rpcCall record eventId =>
      rw [step] at hstep
      split at hstep
      · cases hstep
        exact hdb
      · exact agrees_liveStep hdb hstep

theorem agrees_of_reaches (hreach : Reaches step anyStep .init s) : s.store.database.Agrees :=
  hreach.preserves (fun _ _ _ hdb _ hstep => agrees_step hdb hstep) Database.Agrees.empty

/-- The errors of a projection row are the ones of the fold. -/
theorem nullErrors_row_iff (hdb : db.Agrees) (key : String) :
    (∀ row ∈ db.projections.get key, row.columns.NullErrors) ↔
      NoErrorSinceInitiated (db.log key) := by
  have hprojected := hdb.projected key
  rw [← nullErrors_projectSettlement_iff]
  cases hrow : db.projections.get key with
  | none =>
      rw [hrow] at hprojected
      rw [Option.map_eq_none_iff.mp hprojected.symm]
      simp
  | some row =>
      rw [hrow] at hprojected
      obtain ⟨record, hrecord, hsame⟩ := Option.map_eq_some_iff.mp hprojected.symm
      rw [hrecord]
      have hreason := congrArg Settlement.errorReason hsame
      have hmessage := congrArg Settlement.errorMessage hsame
      simp only [Option.mem_def, Option.some.injEq, forall_eq', Settlement.NullErrors]
      rw [← show record.errorReason = row.columns.errorReason from hreason,
        ← show record.errorMessage = row.columns.errorMessage from hmessage]

/-- The upsert writes the errors of the projection over the old ones. -/
theorem nullErrors_writeProjection {record : Settlement ℕ} {row : ReadModelRow ℕ}
    (hwritten : table.writeProjection (some record) lastSeq = some table')
    (hrow : table'.get record.idempotencyKey = some row) (hnull : record.NullErrors) :
    row.columns.NullErrors := by
  rw [ReadModel.writeProjection_some] at hwritten
  obtain ⟨excluded, hexcluded, rfl⟩ := Option.map_eq_some_iff.mp hwritten
  obtain ⟨keyId, -, rfl⟩ := Option.map_eq_some_iff.mp hexcluded
  rw [InsertionMap.get_set_self] at hrow
  cases hrow
  rw [ReadModelRow.upsert]
  cases table.get record.idempotencyKey with
  | none => exact hnull
  | some old => exact hnull

/-- The row that a worker writes from the events of the key. -/
theorem nullErrors_readModel (hdb : db.Agrees) {key : String} (hsettled : EndsSettled (db.log key))
    (hnoError : NoErrorSinceInitiated (db.log key))
    (hwritten : table.writeProjection (projectSettlement (db.selectLog key)) lastSeq =
      some table') : ∀ row ∈ table'.get key, row.columns.NullErrors := by
  have hne : db.log key ≠ [] := by
    intro hnil
    rw [EndsSettled, hnil] at hsettled
    cases hsettled
  obtain ⟨record, hrecord⟩ := Option.isSome_iff_exists.mp
    (projectSettlement_isSome hne (hdb.known key))
  have hkey : record.idempotencyKey = key := by
    have hprojected := hdb.projected key
    rw [hrecord] at hprojected
    obtain ⟨row, hrow, hsame⟩ := Option.map_eq_some_iff.mp hprojected
    rw [← hdb.keyed key row hrow]
    exact (congrArg Settlement.idempotencyKey hsame).symm
  have hnull : record.NullErrors :=
    (nullErrors_projectSettlement_iff _).mpr hnoError record hrecord
  intro row hrow
  rw [hdb.projectSettlement_selectLog, hrecord, Option.map_some] at hwritten
  subst hkey
  exact nullErrors_writeProjection hwritten hrow
    ((nullErrors_mapTime toMillis record).mpr hnull)

/-- In every state that a history of operations reaches, a settled key has null
errors exactly when no event since its last initiated one carried an error. -/
theorem errorsAreCleared_iff_settlesWithoutErrors {s : LiveRecord.System}
    (hreach : Reaches step anyStep .init s) (key : String) :
    ErrorsAreCleared s key ↔ SettlesWithoutErrors s key := by
  have hdb := agrees_of_reaches hreach
  rw [SettlesWithoutErrors, histories]
  simp only [List.mem_cons, List.not_mem_nil, or_false, forall_eq_or_imp, forall_eq]
  constructor
  · intro hcleared
    refine ⟨fun hsettled => ?_, fun hsettled => ?_, fun hsettled => ?_⟩
    · exact (nullErrors_projectSettlement_iff _).mp (hcleared.memory hsettled)
    · exact (nullErrors_row_iff hdb key).mp (hcleared.row hsettled)
    · exact (nullErrors_projectSettlement_iff _).mp (hcleared.degraded hsettled)
  · rintro ⟨hmemory, hdatabase, hdegraded⟩
    exact
      { memory := fun hsettled =>
          (nullErrors_projectSettlement_iff _).mpr (hmemory hsettled)
        row := fun hsettled => (nullErrors_row_iff hdb key).mpr (hdatabase hsettled)
        readModel := fun hsettled _ _ _ hwritten =>
          nullErrors_readModel hdb hsettled (hdatabase hsettled) hwritten
        degraded := fun hsettled =>
          (nullErrors_projectSettlement_iff _).mpr (hdegraded hsettled) }

def savedRecord : SettlementInput where
  idempotencyKey := "order-1"
  network := some testnet

def settledAtOnce : List (Operation × Conditions) :=
  [(.store (.save savedRecord), ⟨false, 0, 0⟩),
    (.store (.settleAndEnqueue "order-1" { txHash := some "ab12" } none), ⟨false, 0, 0⟩)]

instance {Time : Type*} (event : SettlementEvent Time) : Decidable event.CarriesError :=
  inferInstanceAs (Decidable (_ ∧ ¬ (_ ∧ _)))

instance {Time : Type*} (log : List (SettlementEvent Time)) :
    Decidable (NoErrorSinceInitiated log) :=
  inferInstanceAs (Decidable (∀ event ∈ sinceInitiated log, _))

instance {Time : Type*} (log : List (SettlementEvent Time)) : Decidable (EndsSettled log) :=
  inferInstanceAs (Decidable (_ = _))

instance (s : LiveRecord.System) (key : String) : Decidable (SettlesWithoutErrors s key) :=
  inferInstanceAs (Decidable (∀ log ∈ histories s key, _ → _))

theorem errorsAreCleared_settledAtOnce :
    ∃ s, run step .init settledAtOnce = some s ∧ ErrorsAreCleared s "order-1" := by
  have hrun : (run step .init settledAtOnce).map
      (fun s => decide (SettlesWithoutErrors s "order-1")) = some true := by decide
  obtain ⟨s, hs, hclean⟩ := Option.map_eq_some_iff.mp hrun
  exact ⟨s, hs, (errorsAreCleared_iff_settlesWithoutErrors (reaches_of_run hs) _).mpr
    (of_decide_eq_true hclean)⟩

def listedRecord : Settlement ℕ where
  idempotencyKey := "order-1"
  network := testnet
  scheme := ""
  payer := none
  payTo := none
  asset := none
  amount := none
  state := .unknown
  txHash := some "ab12"
  errorReason := some "settlement_outcome_unknown"
  errorMessage := none
  response := .null
  keyId := none
  createdAt := 0
  updatedAt := 0

def reconciled : List (Operation × Conditions) :=
  [(.store (.save savedRecord), ⟨false, 0, 0⟩),
    (.store (.updateState "order-1" .unknown
      { txHash := some "ab12", errorReason := some "settlement_outcome_unknown" }),
      ⟨false, 0, 0⟩),
    (.reconcile ⟨fun _ => none⟩ (fun _ _ => .success) listedRecord "e-1", ⟨false, 0, 0⟩)]

/-- The reconciled settlement keeps the error of its unknown outcome, in every
store. -/
theorem not_errorsAreCleared_reconciled :
    ¬ ∀ s key, Reaches step anyStep .init s → ErrorsAreCleared s key := by
  intro hcleared
  have hrun : (run step .init reconciled).map
      (fun s => (decide (EndsSettled (s.store.database.log "order-1")),
        (s.store.database.projections.get "order-1").map
          fun row => row.columns.errorReason)) =
      some (true, some (some "settlement_outcome_unknown")) := by
    decide
  obtain ⟨s, hreach, hobserved⟩ := exists_reaches_of_run hrun
  simp only [Prod.mk.injEq, decide_eq_true_eq] at hobserved
  obtain ⟨hsettled, herror⟩ := hobserved
  obtain ⟨row, hrow, hreason⟩ := Option.map_eq_some_iff.mp herror
  have hnull := (hcleared s "order-1" hreach).row hsettled row hrow
  exact absurd (hreason.symm.trans hnull.1) (by simp)

end ErrorsCleared

end X402Facilitator
