import X402Facilitator.Library.Json

/-!
# Settlement events

A settlement is a stream of events.  The event carries its type, the version of
its payload and the payload; the store that appends it adds the sequence number
and the recording time.  Times are a parameter: the memory store records
milliseconds, the database microseconds, and several statements compare streams
with their times erased.
-/

namespace X402Facilitator

inductive SettlementState where
  | submitted
  | settled
  | failed
  | unknown
  deriving DecidableEq, Repr

/-- The states `STATE_TO_EVENT_TYPE` maps to an event type.  Any other state
makes `eventTypeForState` throw before an event is built. -/
inductive TargetState where
  | settled
  | failed
  | unknown
  deriving DecidableEq, Repr

def TargetState.toState : TargetState → SettlementState
  | settled => .settled
  | failed => .failed
  | unknown => .unknown

/-- `SETTLEMENT_EVENT_TYPES`; `other` is a type written by a newer version of
the service. -/
inductive SettlementEventType where
  | initiated
  | settled
  | failed
  | outcomeUnknown
  | other (name : String)
  deriving DecidableEq, Repr

def stateByEventType : SettlementEventType → Option SettlementState
  | .initiated => some .submitted
  | .settled => some .settled
  | .failed => some .failed
  | .outcomeUnknown => some .unknown
  | .other _ => none

def eventTypeForState : TargetState → SettlementEventType
  | .settled => .settled
  | .failed => .failed
  | .unknown => .outcomeUnknown

@[simp]
theorem stateByEventType_eventTypeForState (state : TargetState) :
    stateByEventType (eventTypeForState state) = some state.toState := by
  cases state <;> rfl

/-- `CURRENT_VERSION`, absent for a type the service does not know. -/
def currentVersion : SettlementEventType → Option ℕ
  | .other _ => none
  | _ => some 1

/-- The payload of an event.  A field that is absent or null is `none`
(`Json.null` for the response).  Every event type requires the idempotency key. -/
structure EventPayload where
  idempotencyKey : String
  network : Option String := none
  scheme : Option String := none
  payer : Option String := none
  payTo : Option String := none
  asset : Option String := none
  amount : Option String := none
  txHash : Option String := none
  errorReason : Option String := none
  errorMessage : Option String := none
  response : Json := .null
  keyId : Option String := none

structure SettlementEvent (Time : Type*) where
  eventType : SettlementEventType
  eventVersion : ℕ
  payload : EventPayload
  seq : ℕ
  recordedAt : Time

def SettlementEvent.mapTime {Time Time' : Type*} (convert : Time → Time')
    (event : SettlementEvent Time) : SettlementEvent Time' where
  eventType := event.eventType
  eventVersion := event.eventVersion
  payload := event.payload
  seq := event.seq
  recordedAt := convert event.recordedAt

/-- The `REQUIRED_FIELDS_V1` check beyond the idempotency key: an initiated
event names its network and scheme. -/
def hasRequiredFields (eventType : SettlementEventType) (payload : EventPayload) : Bool :=
  match eventType with
  | .initiated => payload.network.isSome && payload.scheme.isSome
  | _ => true

inductive EventError where
  | unknownType (eventType : SettlementEventType)
  | missingField (eventType : SettlementEventType)

def createSettlementEvent (eventType : SettlementEventType) (payload : EventPayload) :
    Except EventError (SettlementEventType × ℕ × EventPayload) :=
  match currentVersion eventType with
  | none => .error (.unknownType eventType)
  | some version =>
      if hasRequiredFields eventType payload then .ok (eventType, version, payload)
      else .error (.missingField eventType)

/-- Terminal events have no required field beyond the key. -/
theorem createSettlementEvent_forState (state : TargetState) (payload : EventPayload) :
    createSettlementEvent (eventTypeForState state) payload =
      .ok (eventTypeForState state, 1, payload) := by
  cases state <;> rfl

end X402Facilitator
