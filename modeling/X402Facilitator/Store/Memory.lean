import X402Facilitator.Library.InsertionMap
import X402Facilitator.EventStore.Projection

/-!
# The in-memory settlement store

State is never written directly: every operation appends an event to the
stream of its key, and every read folds that stream.  `stream_save` and
`stream_updateState` say what an operation does to the log; a caller needs
nothing else about the store.
-/

namespace X402Facilitator

/-- The fields of a record that `save` reads. -/
structure SettlementInput where
  idempotencyKey : String
  network : Option String := none
  scheme : Option String := none
  payer : Option String := none
  payTo : Option String := none
  asset : Option String := none
  amount : Option String := none
  txHash : Option String := none
  keyId : Option String := none

structure StateDetails where
  txHash : Option String := none
  errorReason : Option String := none
  errorMessage : Option String := none
  response : Json := .null

/-- The `settlement.completed` notification. -/
structure SettlementNotification where
  transaction : Option String
  network : Option String
  payer : Option String
  payTo : Option String
  amount : Option String
  asset : Option String

/-- The payload that `save` appends. -/
def SettlementInput.payload (record : SettlementInput) : EventPayload where
  idempotencyKey := record.idempotencyKey
  network := some (record.network.getD "")
  scheme := some (record.scheme.getD "")
  payer := record.payer
  payTo := record.payTo
  asset := record.asset
  amount := record.amount
  txHash := record.txHash
  keyId := record.keyId

/-- The payload that `updateState` appends. -/
def StateDetails.payload (details : StateDetails) (idempotencyKey : String) :
    EventPayload where
  idempotencyKey := idempotencyKey
  txHash := details.txHash
  errorReason := details.errorReason
  errorMessage := details.errorMessage
  response := details.response

/-- Ordered append-only logs, one for each idempotency key that was written. -/
structure MemorySettlementStore (Time : Type*) where
  events : InsertionMap String (List (SettlementEvent Time))
  streamsNonempty : ∀ key log, events.get key = some log → log ≠ []

namespace MemorySettlementStore

variable {Time : Type*}

def empty : MemorySettlementStore Time :=
  ⟨.empty, fun key log h => by simp at h⟩

/-- The log of one key, empty for a key never written. -/
def stream (store : MemorySettlementStore Time) (key : String) :
    List (SettlementEvent Time) :=
  (store.events.get key).getD []

/-- Push one event onto the log of `key`. -/
def push (store : MemorySettlementStore Time) (key : String)
    (event : SettlementEvent Time) : MemorySettlementStore Time where
  events := store.events.set key (store.stream key ++ [event])
  streamsNonempty := by
    intro other log hlog
    rw [InsertionMap.get_set] at hlog
    split at hlog
    · cases hlog
      simp
    · exact store.streamsNonempty other log hlog

/-- Append one event.  A rejected envelope throws and changes nothing. -/
def append (store : MemorySettlementStore Time) (now : Time) (key : String)
    (eventType : SettlementEventType) (payload : EventPayload) :
    MemorySettlementStore Time :=
  match createSettlementEvent eventType payload with
  | .error _ => store
  | .ok (type, version, payload) =>
      store.push key ⟨type, version, payload, (store.stream key).length + 1, now⟩

def get (store : MemorySettlementStore Time) (key : String) :
    Option (Settlement Time) :=
  projectSettlement (store.stream key)

def save (store : MemorySettlementStore Time) (now : Time) (record : SettlementInput) :
    MemorySettlementStore Time × Option (Settlement Time) :=
  let store := store.append now record.idempotencyKey .initiated record.payload
  (store, store.get record.idempotencyKey)

def updateState (store : MemorySettlementStore Time) (now : Time) (key : String)
    (state : TargetState) (details : StateDetails) :
    MemorySettlementStore Time × Option (Settlement Time) :=
  if (store.events.get key).isNone then (store, none)
  else
    let store := store.append now key (eventTypeForState state) (details.payload key)
    (store, store.get key)

def listUnknown (store : MemorySettlementStore Time) : List (Settlement Time) :=
  store.events.keys.filterMap fun key =>
    (store.get key).filter fun record => record.state == .unknown

/-- The in-memory store shares no transaction with a notification, so it
reports `atomicallyEnqueued := false` and hands the event back. -/
def settleAndEnqueue (store : MemorySettlementStore Time) (now : Time) (key : String)
    (details : StateDetails) (event : Option SettlementNotification) :
    MemorySettlementStore Time × Bool × Option (Settlement Time) ×
      Option SettlementNotification :=
  let (store, record) := store.updateState now key .settled details
  (store, false, record, event)

def getEventLog (store : MemorySettlementStore Time) (key : String) :
    List (SettlementEvent Time) :=
  store.stream key

def rebuildProjection (store : MemorySettlementStore Time) (key : String) :
    Option (Settlement Time) :=
  store.get key

@[simp]
theorem stream_empty (key : String) :
    (empty : MemorySettlementStore Time).stream key = [] := rfl

theorem stream_push (store : MemorySettlementStore Time) (key : String)
    (event : SettlementEvent Time) (other : String) :
    (store.push key event).stream other =
      if other = key then store.stream other ++ [event] else store.stream other := by
  simp only [push, stream, InsertionMap.get_set]
  split
  · next h => simp [h]
  · rfl

/-- The key is in the map exactly when its log has an event. -/
theorem isNone_get_iff (store : MemorySettlementStore Time) (key : String) :
    (store.events.get key).isNone = true ↔ store.stream key = [] := by
  rw [stream]
  cases h : store.events.get key with
  | none => simp
  | some log => simpa using store.streamsNonempty key log h

/-- The event that `save` appends. -/
def initiatedEvent (record : SettlementInput) (seq : ℕ) (now : Time) :
    SettlementEvent Time :=
  ⟨.initiated, 1, record.payload, seq, now⟩

/-- The event that `updateState` appends. -/
def stateEvent (key : String) (state : TargetState) (details : StateDetails) (seq : ℕ)
    (now : Time) : SettlementEvent Time :=
  ⟨eventTypeForState state, 1, details.payload key, seq, now⟩

theorem save_fst (store : MemorySettlementStore Time) (now : Time)
    (record : SettlementInput) :
    (store.save now record).1 = store.push record.idempotencyKey
      (initiatedEvent record ((store.stream record.idempotencyKey).length + 1) now) := rfl

theorem stream_save (store : MemorySettlementStore Time) (now : Time)
    (record : SettlementInput) (other : String) :
    (store.save now record).1.stream other =
      if other = record.idempotencyKey then
        store.stream other ++ [initiatedEvent record ((store.stream other).length + 1) now]
      else store.stream other := by
  rw [save_fst, stream_push]
  split
  · next h => rw [h]
  · rfl

variable {key : String} {event : SettlementEvent Time} {store : MemorySettlementStore Time}
  {record : Settlement Time}

theorem updateState_of_nil (store : MemorySettlementStore Time) (now : Time) (state : TargetState)
    (details : StateDetails) (hnil : store.stream key = []) :
    store.updateState now key state details = (store, none) := by
  rw [updateState, if_pos ((store.isNone_get_iff key).mpr hnil)]

theorem updateState_of_ne_nil (store : MemorySettlementStore Time) (now : Time)
    (state : TargetState) (details : StateDetails) (hne : store.stream key ≠ []) :
    (store.updateState now key state details).1 = store.push key
      (stateEvent key state details ((store.stream key).length + 1) now) := by
  have hpresent : ¬ (store.events.get key).isNone = true :=
    fun h => hne ((store.isNone_get_iff key).mp h)
  rw [updateState, if_neg hpresent]
  simp only [append, createSettlementEvent_forState]
  rfl

/-- `updateState` appends its event to a log that exists and does nothing else. -/
theorem stream_updateState (store : MemorySettlementStore Time) (now : Time)
    (key : String) (state : TargetState) (details : StateDetails) (other : String) :
    (store.updateState now key state details).1.stream other =
      if other = key ∧ store.stream key ≠ [] then
        store.stream other ++
          [stateEvent key state details ((store.stream other).length + 1) now]
      else store.stream other := by
  by_cases hnil : store.stream key = []
  · rw [updateState_of_nil store now state details hnil, if_neg fun h => h.2 hnil]
  · rw [updateState_of_ne_nil store now state details hnil, stream_push]
    by_cases hkey : other = key
    · subst hkey
      simp [hnil]
    · simp [hkey]

/-- The return value of `updateState` is the record a read finds afterwards. -/
theorem updateState_snd (store : MemorySettlementStore Time) (now : Time)
    (key : String) (state : TargetState) (details : StateDetails) :
    (store.updateState now key state details).2 =
      (store.updateState now key state details).1.get key := by
  by_cases hnil : store.stream key = []
  · rw [updateState_of_nil store now state details hnil, get, hnil]
    rfl
  · have hpresent : ¬ (store.events.get key).isNone = true :=
      fun h => hnil ((store.isNone_get_iff key).mp h)
    rw [updateState, if_neg hpresent]

@[simp]
theorem get_empty (key : String) :
    (empty : MemorySettlementStore Time).get key = none := rfl

/-- `save` starts the record of its key over. -/
theorem get_save (store : MemorySettlementStore Time) (now : Time)
    (record : SettlementInput) (other : String) :
    (store.save now record).1.get other =
      if other = record.idempotencyKey then
        some (.initiate record.payload
          (((store.get other).map Settlement.createdAt).getD now) now)
      else store.get other := by
  rw [get, stream_save]
  split
  · rw [projectSettlement_append, initiatedEvent, applyEvent_initiated, get]
  · rfl

/-- `updateState` merges into the record of its key, where there is one. -/
theorem get_updateState (store : MemorySettlementStore Time) (now : Time)
    (key : String) (state : TargetState) (details : StateDetails) (other : String) :
    (store.updateState now key state details).1.get other =
      if other = key ∧ store.stream key ≠ [] then
        some (((store.get other).getD (.seed key now)).merge state.toState
          (details.payload key) now)
      else store.get other := by
  rw [get, stream_updateState]
  split
  · rw [projectSettlement_append, stateEvent, applyEvent_forState, get]
    rfl
  · rfl

/-- Logs only grow. -/
theorem mem_stream_save (hevent : event ∈ store.stream key) (now : Time) (record : SettlementInput) :
    event ∈ (store.save now record).1.stream key := by
  rw [stream_save]
  split
  · exact List.mem_append_left _ hevent
  · exact hevent

theorem mem_stream_updateState (hevent : event ∈ store.stream key) (now : Time) (other : String)
    (state : TargetState) (details : StateDetails) :
    event ∈ (store.updateState now other state details).1.stream key := by
  rw [stream_updateState]
  split
  · exact List.mem_append_left _ hevent
  · exact hevent

theorem stream_ne_nil_of_get (hget : store.get key = some record) : store.stream key ≠ [] := by
  intro hnil
  rw [get, hnil] at hget
  cases hget

/-- What is listed is the unknown record of some key. -/
theorem mem_listUnknown (hlisted : record ∈ store.listUnknown) :
    ∃ key, store.get key = some record ∧ record.state = .unknown := by
  obtain ⟨key, -, hkey⟩ := List.mem_filterMap.mp hlisted
  obtain ⟨hget, hunknown⟩ := Option.filter_eq_some_iff.mp hkey
  exact ⟨key, hget, by simpa using hunknown⟩

end MemorySettlementStore

end X402Facilitator
