import Mathlib.Data.List.Induction
import X402Facilitator.EventStore.Events

/-!
# The settlement projection

`projectSettlement` is the fold that says what a settlement currently looks
like.  Terminal events merge into the projection field by field, keeping the
old value where the payload has none; an initiated event rebuilds it and keeps
only the creation time.
-/

namespace X402Facilitator

structure Settlement (Time : Type*) where
  idempotencyKey : String
  network : String
  scheme : String
  payer : Option String
  payTo : Option String
  asset : Option String
  amount : Option String
  state : SettlementState
  txHash : Option String
  errorReason : Option String
  errorMessage : Option String
  response : Json
  keyId : Option String
  createdAt : Time
  updatedAt : Time

namespace Settlement

variable {Time Time' : Type*}

def mapTime (convert : Time → Time') (record : Settlement Time) : Settlement Time' where
  idempotencyKey := record.idempotencyKey
  network := record.network
  scheme := record.scheme
  payer := record.payer
  payTo := record.payTo
  asset := record.asset
  amount := record.amount
  state := record.state
  txHash := record.txHash
  errorReason := record.errorReason
  errorMessage := record.errorMessage
  response := record.response
  keyId := record.keyId
  createdAt := convert record.createdAt
  updatedAt := convert record.updatedAt

def initiate (payload : EventPayload) (createdAt recordedAt : Time) : Settlement Time where
  idempotencyKey := payload.idempotencyKey
  network := payload.network.getD ""
  scheme := payload.scheme.getD ""
  payer := payload.payer
  payTo := payload.payTo
  asset := payload.asset
  amount := payload.amount
  state := .submitted
  txHash := payload.txHash
  errorReason := none
  errorMessage := none
  response := .null
  keyId := payload.keyId
  createdAt := createdAt
  updatedAt := recordedAt

/-- The minimal aggregate that a terminal event without a prior initiated event
is folded onto. -/
def seed (idempotencyKey : String) (recordedAt : Time) : Settlement Time where
  idempotencyKey := idempotencyKey
  network := ""
  scheme := ""
  payer := none
  payTo := none
  asset := none
  amount := none
  state := .submitted
  txHash := none
  errorReason := none
  errorMessage := none
  response := .null
  keyId := none
  createdAt := recordedAt
  updatedAt := recordedAt

/-- Merge a terminal event: a field of the payload wins over the old one where
it is present. -/
def merge (base : Settlement Time) (state : SettlementState) (payload : EventPayload)
    (recordedAt : Time) : Settlement Time :=
  { base with
    state := state
    txHash := payload.txHash.or base.txHash
    errorReason := payload.errorReason.or base.errorReason
    errorMessage := payload.errorMessage.or base.errorMessage
    response := payload.response.orElse base.response
    updatedAt := recordedAt }

def withoutResponse (record : Settlement Time) : Settlement Time :=
  { record with response := .null }

end Settlement

section Fold

variable {Time Time' : Type*}

/-- Fold one event onto the previous projection, `none` before the first. -/
def applyEvent (projection : Option (Settlement Time)) (event : SettlementEvent Time) :
    Option (Settlement Time) :=
  match event.eventType, stateByEventType event.eventType with
  | _, none => projection
  | .initiated, some _ =>
      some (.initiate event.payload
        ((projection.map Settlement.createdAt).getD event.recordedAt) event.recordedAt)
  | _, some state =>
      let base := projection.getD (.seed event.payload.idempotencyKey event.recordedAt)
      some (base.merge state event.payload event.recordedAt)

def projectSettlement (events : List (SettlementEvent Time)) : Option (Settlement Time) :=
  events.foldl applyEvent none

@[simp]
theorem projectSettlement_nil :
    projectSettlement ([] : List (SettlementEvent Time)) = none := rfl

/-- Appending an event is one more fold step. -/
theorem projectSettlement_append (events : List (SettlementEvent Time))
    (event : SettlementEvent Time) :
    projectSettlement (events ++ [event]) =
      applyEvent (projectSettlement events) event := by
  simp [projectSettlement]

theorem applyEvent_initiated (projection : Option (Settlement Time)) (version seq : ℕ)
    (payload : EventPayload) (recordedAt : Time) :
    applyEvent projection ⟨.initiated, version, payload, seq, recordedAt⟩ =
      some (.initiate payload ((projection.map Settlement.createdAt).getD recordedAt)
        recordedAt) := rfl

theorem applyEvent_forState (projection : Option (Settlement Time)) (version seq : ℕ)
    (state : TargetState) (payload : EventPayload) (recordedAt : Time) :
    applyEvent projection ⟨eventTypeForState state, version, payload, seq, recordedAt⟩ =
      some ((projection.getD (.seed payload.idempotencyKey recordedAt)).merge
        state.toState payload recordedAt) := by
  cases state <;> rfl

/-- A terminal event is merged, onto the seed where there is no record yet. -/
theorem applyEvent_terminal (projection : Option (Settlement Time))
    {event : SettlementEvent Time} {state : SettlementState}
    (hterminal : event.eventType ≠ .initiated)
    (hstate : stateByEventType event.eventType = some state) :
    applyEvent projection event =
      some ((projection.getD (.seed event.payload.idempotencyKey event.recordedAt)).merge
        state event.payload event.recordedAt) := by
  obtain ⟨eventType, version, payload, seq, recordedAt⟩ := event
  cases eventType with
  | initiated => exact absurd rfl hterminal
  | settled => cases hstate; rfl
  | failed => cases hstate; rfl
  | outcomeUnknown => cases hstate; rfl
  | other name => cases hstate

/-- An event of a type that is not known is skipped. -/
theorem applyEvent_of_none (projection : Option (Settlement Time))
    {event : SettlementEvent Time} (hstate : stateByEventType event.eventType = none) :
    applyEvent projection event = projection := by
  obtain ⟨eventType, version, payload, seq, recordedAt⟩ := event
  cases eventType with
  | other name => rfl
  | _ => cases hstate

/-- A non-empty stream of known events projects to a record. -/
theorem projectSettlement_isSome {events : List (SettlementEvent Time)}
    (hne : events ≠ [])
    (hknown : ∀ event ∈ events, (stateByEventType event.eventType).isSome) :
    (projectSettlement events).isSome := by
  induction events using List.reverseRecOn with
  | nil => exact absurd rfl hne
  | append_singleton events event _ =>
      rw [projectSettlement_append]
      obtain ⟨state, hstate⟩ := Option.isSome_iff_exists.mp (hknown event (by simp))
      rw [applyEvent]
      split
      · simp_all
      · rfl
      · rfl

/-- The fold on every field but the response. -/
theorem withoutResponse_applyEvent (projection : Option (Settlement Time))
    (event : SettlementEvent Time) :
    (applyEvent projection event).map Settlement.withoutResponse =
      (applyEvent (projection.map Settlement.withoutResponse) event).map
        Settlement.withoutResponse := by
  obtain ⟨eventType, version, payload, seq, recordedAt⟩ := event
  cases eventType <;> cases projection <;> rfl

theorem mapTime_applyEvent (convert : Time → Time')
    (projection : Option (Settlement Time)) (event : SettlementEvent Time) :
    (applyEvent projection event).map (Settlement.mapTime convert) =
      applyEvent (projection.map (Settlement.mapTime convert)) (event.mapTime convert) := by
  obtain ⟨eventType, version, payload, seq, recordedAt⟩ := event
  cases eventType <;> cases projection <;> rfl

theorem mapTime_projectSettlement (convert : Time → Time')
    (events : List (SettlementEvent Time)) :
    (projectSettlement events).map (Settlement.mapTime convert) =
      projectSettlement (events.map (SettlementEvent.mapTime convert)) := by
  induction events using List.reverseRecOn with
  | nil => rfl
  | append_singleton events event ih =>
      rw [List.map_append, List.map_singleton, projectSettlement_append,
        projectSettlement_append, mapTime_applyEvent, ih]

end Fold

end X402Facilitator
