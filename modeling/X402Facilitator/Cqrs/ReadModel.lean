import X402Facilitator.Library.InsertionMap
import X402Facilitator.EventStore.Projection

/-!
# The settlement read model

`writeProjection` upserts the projection of a settlement.  On a conflict only
the columns that a terminal event changes are rewritten; the ones that an
initiated event sets stay as the first write left them.
-/

namespace X402Facilitator

/-- A row of `settlement_read_model`. -/
structure ReadModelRow (Time : Type*) where
  idempotencyKey : String
  keyId : String
  network : String
  scheme : String
  payer : Option String
  payTo : Option String
  asset : Option String
  amount : Option String
  state : SettlementState
  txHash : Option String
  errorReason : Option String
  errorMessage : Option String
  createdAt : Time
  updatedAt : Time
  lastEventSeq : ℕ

/-- `settlement_read_model`, by its primary key. -/
abbrev ReadModel (Time : Type*) := InsertionMap String (ReadModelRow Time)

section Write

variable {Time : Type*}

/-- The values of the statement, absent where they violate
`key_id TEXT NOT NULL`. -/
def Settlement.readModelRow (projection : Settlement Time) (lastSeq : ℕ) :
    Option (ReadModelRow Time) :=
  projection.keyId.map fun keyId =>
    { idempotencyKey := projection.idempotencyKey
      keyId := keyId
      network := projection.network
      scheme := projection.scheme
      payer := projection.payer
      payTo := projection.payTo
      asset := projection.asset
      amount := projection.amount
      state := projection.state
      txHash := projection.txHash
      errorReason := projection.errorReason
      errorMessage := projection.errorMessage
      createdAt := projection.createdAt
      updatedAt := projection.updatedAt
      lastEventSeq := lastSeq }

/-- The `SET` clause of the upsert. -/
def ReadModelRow.onConflict (row excluded : ReadModelRow Time) : ReadModelRow Time :=
  { row with
    state := excluded.state
    txHash := excluded.txHash
    errorReason := excluded.errorReason
    errorMessage := excluded.errorMessage
    updatedAt := excluded.updatedAt
    lastEventSeq := excluded.lastEventSeq }

/-- The row that the upsert leaves, over the one that is there. -/
def ReadModelRow.upsert (old : Option (ReadModelRow Time)) (excluded : ReadModelRow Time) :
    ReadModelRow Time :=
  (old.map fun row => row.onConflict excluded).getD excluded

/-- `none` when the database rejects the row.  Without a projection nothing is
written. -/
def ReadModel.writeProjection (table : ReadModel Time)
    (projection : Option (Settlement Time)) (lastSeq : ℕ) : Option (ReadModel Time) :=
  match projection with
  | none => some table
  | some projection =>
      (projection.readModelRow lastSeq).map fun excluded =>
        table.set excluded.idempotencyKey
          (ReadModelRow.upsert (table.get excluded.idempotencyKey) excluded)

@[simp]
theorem ReadModel.writeProjection_none (table : ReadModel Time) (lastSeq : ℕ) :
    table.writeProjection none lastSeq = some table := rfl

theorem ReadModel.writeProjection_some (table : ReadModel Time)
    (projection : Settlement Time) (lastSeq : ℕ) :
    table.writeProjection (some projection) lastSeq =
      (projection.readModelRow lastSeq).map fun excluded =>
        table.set excluded.idempotencyKey
          (ReadModelRow.upsert (table.get excluded.idempotencyKey) excluded) := rfl

/-- The columns of the row as a settlement; there is no response column. -/
def ReadModelRow.columns (row : ReadModelRow Time) : Settlement Time where
  idempotencyKey := row.idempotencyKey
  network := row.network
  scheme := row.scheme
  payer := row.payer
  payTo := row.payTo
  asset := row.asset
  amount := row.amount
  state := row.state
  txHash := row.txHash
  errorReason := row.errorReason
  errorMessage := row.errorMessage
  response := .null
  keyId := some row.keyId
  createdAt := row.createdAt
  updatedAt := row.updatedAt

/-- What an initiated event sets, apart from the key and the creation time. -/
structure FixedColumns where
  network : String
  scheme : String
  payer : Option String
  payTo : Option String
  asset : Option String
  amount : Option String
  keyId : Option String
  deriving DecidableEq

def Settlement.fixedColumns (projection : Settlement Time) : FixedColumns where
  network := projection.network
  scheme := projection.scheme
  payer := projection.payer
  payTo := projection.payTo
  asset := projection.asset
  amount := projection.amount
  keyId := projection.keyId

theorem Settlement.isSome_readModelRow (projection : Settlement Time) (lastSeq : ℕ) :
    (projection.readModelRow lastSeq).isSome = projection.keyId.isSome := by
  rw [readModelRow, Option.isSome_map]

theorem Settlement.columns_readModelRow {projection : Settlement Time} {lastSeq : ℕ}
    {row : ReadModelRow Time} (hrow : projection.readModelRow lastSeq = some row) :
    row.columns = projection.withoutResponse ∧ row.lastEventSeq = lastSeq := by
  obtain ⟨keyId, hkeyId, rfl⟩ := Option.map_eq_some_iff.mp hrow
  rw [ReadModelRow.columns, withoutResponse, hkeyId]
  exact ⟨rfl, rfl⟩

/-- A second conflicting write leaves nothing of the one before. -/
@[simp]
theorem ReadModelRow.onConflict_onConflict (row first second : ReadModelRow Time) :
    (row.onConflict first).onConflict second = row.onConflict second := rfl

theorem ReadModelRow.onConflict_self (row : ReadModelRow Time) :
    row.onConflict row = row := rfl

/-- The overwritten columns come from the last write, all others from the row
that is there. -/
theorem ReadModelRow.columns_onConflict_eq_iff (row excluded : ReadModelRow Time) :
    (row.onConflict excluded).columns = excluded.columns ↔
      row.idempotencyKey = excluded.idempotencyKey ∧ row.createdAt = excluded.createdAt ∧
        row.columns.fixedColumns = excluded.columns.fixedColumns := by
  simp only [columns, onConflict, Settlement.mk.injEq, Settlement.fixedColumns,
    FixedColumns.mk.injEq, Option.some.injEq]
  tauto

end Write

section History

variable {Time : Type*}

structure KeyHistory (Time : Type*) where
  key : String
  events : List (SettlementEvent Time)
  keyed : ∀ event ∈ events, event.payload.idempotencyKey = key

variable {projection : Option (Settlement Time)} {event : SettlementEvent Time}
  {next : Settlement Time}

theorem applyEvent_isSome (event : SettlementEvent Time) (hsome : projection.isSome) :
    (applyEvent projection event).isSome := by
  rw [applyEvent]
  split
  · exact hsome
  · rfl
  · rfl

/-- The key and the creation time of a projection never change again. -/
theorem applyEvent_keeps {projection : Settlement Time}
    (hkeyed : event.payload.idempotencyKey = projection.idempotencyKey)
    (hnext : applyEvent (some projection) event = some next) :
    next.idempotencyKey = projection.idempotencyKey ∧
      next.createdAt = projection.createdAt := by
  rw [applyEvent] at hnext
  split at hnext
  · cases hnext
    exact ⟨rfl, rfl⟩
  · cases hnext
    exact ⟨hkeyed, rfl⟩
  · cases hnext
    exact ⟨rfl, rfl⟩

theorem foldl_applyEvent_keeps {projection last : Settlement Time}
    {events : List (SettlementEvent Time)}
    (hkeyed : ∀ event ∈ events, event.payload.idempotencyKey = projection.idempotencyKey)
    (hlast : events.foldl applyEvent (some projection) = some last) :
    last.idempotencyKey = projection.idempotencyKey ∧
      last.createdAt = projection.createdAt := by
  induction events generalizing projection with
  | nil =>
      cases hlast
      exact ⟨rfl, rfl⟩
  | cons event events ih =>
      rw [List.foldl_cons] at hlast
      obtain ⟨next, hnext⟩ := Option.isSome_iff_exists.mp
        (applyEvent_isSome event (Option.isSome_some (a := projection)))
      rw [hnext] at hlast
      obtain ⟨hkey, hcreated⟩ := applyEvent_keeps (hkeyed event List.mem_cons_self) hnext
      have hrest : ∀ other ∈ events,
          other.payload.idempotencyKey = next.idempotencyKey := by
        intro other hother
        rw [hkey]
        exact hkeyed other (List.mem_cons_of_mem event hother)
      obtain ⟨hkey', hcreated'⟩ := ih hrest hlast
      exact ⟨hkey'.trans hkey, hcreated'.trans hcreated⟩

theorem foldl_applyEvent_isSome (events : List (SettlementEvent Time)) (hsome : projection.isSome) :
    (events.foldl applyEvent projection).isSome := by
  induction events generalizing projection with
  | nil => exact hsome
  | cons event events ih => exact ih (applyEvent_isSome event hsome)

/-- A projection is made by an event, which names its key. -/
theorem applyEvent_none_key (hnext : applyEvent none event = some next) :
    next.idempotencyKey = event.payload.idempotencyKey := by
  rw [applyEvent] at hnext
  split at hnext
  · cases hnext
  · cases hnext
    rfl
  · cases hnext
    rfl

namespace KeyHistory

variable (history : KeyHistory Time)

/-- The projection of the first `count` events. -/
def projected (count : ℕ) : Option (Settlement Time) :=
  projectSettlement (history.events.take count)

/-- The whole history, projected. -/
theorem projected_length :
    history.projected history.events.length = projectSettlement history.events := by
  rw [projected, List.take_length]

theorem projectSettlement_eq_foldl_drop (count : ℕ) :
    projectSettlement history.events =
      (history.events.drop count).foldl applyEvent (history.projected count) := by
  rw [projected, projectSettlement, projectSettlement, ← List.foldl_append,
    List.take_append_drop]

variable {count : ℕ} {projection : Settlement Time}

theorem isSome_projected_length (hsome : (history.projected count).isSome) :
    (history.projected history.events.length).isSome := by
  rw [projected_length, history.projectSettlement_eq_foldl_drop count]
  exact foldl_applyEvent_isSome _ hsome

theorem key_projectSettlement {events : List (SettlementEvent Time)} {key : String}
    (hkeyed : ∀ event ∈ events, event.payload.idempotencyKey = key)
    (hprojection : projectSettlement events = some projection) :
    projection.idempotencyKey = key := by
  induction events using List.reverseRecOn generalizing projection with
  | nil => cases hprojection
  | append_singleton events event ih =>
      rw [projectSettlement_append] at hprojection
      have hevent := hkeyed event (by simp)
      cases hbefore : projectSettlement events with
      | none =>
          rw [hbefore] at hprojection
          exact (applyEvent_none_key hprojection).trans hevent
      | some before =>
          have hkey := ih (fun other hother => hkeyed other (by simp [hother])) hbefore
          rw [hbefore] at hprojection
          exact (applyEvent_keeps (hevent.trans hkey.symm) hprojection).1.trans hkey

theorem key_projected (hprojection : history.projected count = some projection) :
    projection.idempotencyKey = history.key :=
  key_projectSettlement
    (fun event hevent => history.keyed event (List.mem_of_mem_take hevent)) hprojection

/-- Every prefix that projects to a record gives it the same creation time. -/
theorem createdAt_projected {last : Settlement Time}
    (hprojection : history.projected count = some projection)
    (hlast : history.projected history.events.length = some last) :
    projection.createdAt = last.createdAt := by
  rw [projected_length, history.projectSettlement_eq_foldl_drop count,
    hprojection] at hlast
  have hkeyed : ∀ event ∈ history.events.drop count,
      event.payload.idempotencyKey = projection.idempotencyKey := by
    intro event hevent
    rw [history.key_projected hprojection]
    exact history.keyed event (List.mem_of_mem_drop hevent)
  exact (foldl_applyEvent_keeps hkeyed hlast).2.symm

end KeyHistory

end History

end X402Facilitator
