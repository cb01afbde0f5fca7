import X402Facilitator.Store.Memory

/-!
# Reconciliation of unknown settlements

A sweep lists the records in state `unknown` and asks the network for the
transaction of each one.  A final answer settles or fails the record; a record
without a transaction hash, or on a network without an RPC endpoint, is skipped.
-/

namespace X402Facilitator

/-- What `getTransaction` reports, `unresolved` for every other status and
`threw` for a failed call. -/
inductive RpcAnswer where
  | success
  | failed
  | unresolved
  | threw
  deriving DecidableEq, Repr

def testnet : String := "stellar:testnet"

def defaultTestnetRpc : String := "https://soroban-testnet.stellar.org"

/-- `perNetwork[network].rpcUrl`. -/
structure ReconcileConfig where
  rpcUrl : String → Option String

/-- The endpoint a record is polled at; the empty string counts as none. -/
def ReconcileConfig.endpoint (config : ReconcileConfig) (network : String) :
    Option String :=
  ((config.rpcUrl network).or
    (if network = testnet then some defaultTestnetRpc else none)).filter (· ≠ "")

/-- What a sweep does to one record: the state it moves to, the details of the
update and the notification that goes with a settlement. -/
structure Resolution where
  state : TargetState
  details : StateDetails
  notification : Option SettlementNotification

section Sweep

variable {Time : Type*}

/-- The notification for a settlement found on chain. -/
def Settlement.completed (record : Settlement Time) : SettlementNotification where
  transaction := record.txHash
  network := some record.network
  payer := record.payer
  payTo := record.payTo
  amount := record.amount
  asset := record.asset

/-- The resolution of one listed record, `none` when it is left alone. -/
def resolve (config : ReconcileConfig) (rpcCall : String → String → RpcAnswer)
    (record : Settlement Time) : Option Resolution :=
  match record.txHash.filter (· ≠ ""), config.endpoint record.network with
  | some txHash, some rpcUrl =>
      match rpcCall rpcUrl txHash with
      | .success => some ⟨.settled, { txHash := some txHash }, some record.completed⟩
      | .failed => some ⟨.failed,
          { txHash := some txHash
            errorReason := some "transaction_failed"
            errorMessage := some "Transaction failed on chain" }, none⟩
      | .unresolved => none
      | .threw => none
  | _, _ => none

/-- Apply the resolution of a listed record.  The update is not conditional on
the record still being unknown. -/
def applyResolution (store : MemorySettlementStore Time) (now : Time)
    (record : Settlement Time) : Option Resolution → MemorySettlementStore Time
  | none => store
  | some resolution =>
      match resolution.state with
      | .settled => (store.settleAndEnqueue now record.idempotencyKey resolution.details
          resolution.notification).1
      | state => (store.updateState now record.idempotencyKey state resolution.details).1

/-- Either store operation is an update of the record's state. -/
theorem applyResolution_some (store : MemorySettlementStore Time) (now : Time)
    (record : Settlement Time) (resolution : Resolution) :
    applyResolution store now record (some resolution) =
      (store.updateState now record.idempotencyKey resolution.state
        resolution.details).1 := by
  obtain ⟨state, details, notification⟩ := resolution
  cases state <;> rfl

/-- One sweep over the listed records, with the number it resolved. -/
def sweepRecords (config : ReconcileConfig) (rpcCall : String → String → RpcAnswer)
    (now : Time) (store : MemorySettlementStore Time) :
    List (Settlement Time) → MemorySettlementStore Time × ℕ
  | [] => (store, 0)
  | record :: records =>
      let resolution := resolve config rpcCall record
      let (store, count) := sweepRecords config rpcCall now
        (applyResolution store now record resolution) records
      (store, count + if resolution.isSome then 1 else 0)

def reconcileUnknownSettlements (config : ReconcileConfig)
    (rpcCall : String → String → RpcAnswer) (now : Time)
    (store : MemorySettlementStore Time) : MemorySettlementStore Time × ℕ :=
  sweepRecords config rpcCall now store store.listUnknown

variable {config : ReconcileConfig} {record found : Settlement Time} {resolution : Resolution}
  {rpcCall : String → String → RpcAnswer} {key : String} {now : Time}
  {store : MemorySettlementStore Time} {records : List (Settlement Time)}

/-- A resolution carries the non-empty hash that was polled. -/
theorem resolve_txHash (hresolve : resolve config rpcCall record = some resolution) :
    ∃ txHash, txHash ≠ "" ∧ record.txHash = some txHash ∧
      resolution.details.txHash = some txHash ∧
      (resolution.state = .settled ∨ resolution.state = .failed) := by
  rw [resolve] at hresolve
  split at hresolve
  · next txHash rpcUrl htx _ =>
      obtain ⟨hrecord, hne⟩ := Option.filter_eq_some_iff.mp htx
      have hne : txHash ≠ "" := by simpa using hne
      split at hresolve
      · cases hresolve
        exact ⟨txHash, hne, hrecord, rfl, Or.inl rfl⟩
      · cases hresolve
        exact ⟨txHash, hne, hrecord, rfl, Or.inr rfl⟩
      · cases hresolve
      · cases hresolve
  · cases hresolve

/-- A resolution records no response. -/
theorem resolve_response (hresolve : resolve config rpcCall record = some resolution) :
    resolution.details.response = .null := by
  rw [resolve] at hresolve
  split at hresolve
  · split at hresolve <;> cases hresolve <;> rfl
  · cases hresolve

/-- A resolution follows the answer of the network. -/
theorem resolve_answer {answer : RpcAnswer}
    (hresolve : resolve config (fun _ _ => answer) record = some resolution) :
    (resolution.state = .settled → answer = .success) ∧
      (resolution.state = .failed → answer = .failed) := by
  rw [resolve] at hresolve
  split at hresolve
  · cases answer <;> cases hresolve <;> simp
  · cases hresolve

theorem resolve_of_answer (rpcCall : String → String → RpcAnswer) {txHash rpcUrl : String}
    (hne : txHash ≠ "") (htx : record.txHash = some txHash)
    (hendpoint : config.endpoint record.network = some rpcUrl) :
    (rpcCall rpcUrl txHash = .success → ∃ resolution,
      resolve config rpcCall record = some resolution ∧ resolution.state = .settled) ∧
    (rpcCall rpcUrl txHash = .failed → ∃ resolution,
      resolve config rpcCall record = some resolution ∧ resolution.state = .failed) := by
  have hfilter : record.txHash.filter (· ≠ "") = some txHash := by
    rw [htx]
    simp [Option.filter, hne]
  constructor
  · intro hanswer
    simp only [resolve, hfilter, hendpoint, hanswer]
    exact ⟨_, rfl, rfl⟩
  · intro hanswer
    simp only [resolve, hfilter, hendpoint, hanswer]
    exact ⟨_, rfl, rfl⟩

theorem get_applyResolution_of_ne (store : MemorySettlementStore Time) (now : Time)
    (hkey : key ≠ record.idempotencyKey) (resolution : Option Resolution) :
    (applyResolution store now record resolution).get key = store.get key := by
  cases resolution with
  | none => rfl
  | some resolution =>
      rw [applyResolution_some, MemorySettlementStore.get_updateState,
        if_neg fun h => hkey h.1]

theorem state_applyResolution (hget : store.get record.idempotencyKey = some found) :
    ((applyResolution store now record (some resolution)).get
      record.idempotencyKey).map Settlement.state = some resolution.state.toState := by
  rw [applyResolution_some, MemorySettlementStore.get_updateState,
    if_pos ⟨rfl, MemorySettlementStore.stream_ne_nil_of_get hget⟩]
  rfl

/-- A sweep writes the keys that it lists. -/
theorem get_sweepRecords_of_not_mem (config : ReconcileConfig)
    (rpcCall : String → String → RpcAnswer) (now : Time) (store : MemorySettlementStore Time)
    (hkey : key ∉ records.map Settlement.idempotencyKey) :
    (sweepRecords config rpcCall now store records).1.get key = store.get key := by
  induction records generalizing store with
  | nil => rfl
  | cons record records ih =>
      rw [List.map_cons, List.mem_cons, not_or] at hkey
      calc (sweepRecords config rpcCall now store (record :: records)).1.get key
        _ = (applyResolution store now record
              (resolve config rpcCall record)).get key := ih _ hkey.2
        _ = store.get key := get_applyResolution_of_ne store now hkey.1 _

/-- A sweep over distinct keys applies the resolution of each listed record. -/
theorem state_sweepRecords (store : MemorySettlementStore Time)
    (hnodup : (records.map Settlement.idempotencyKey).Nodup) (hmem : record ∈ records)
    (hget : store.get record.idempotencyKey = some found)
    (hresolve : resolve config rpcCall record = some resolution) :
    ((sweepRecords config rpcCall now store records).1.get
      record.idempotencyKey).map Settlement.state = some resolution.state.toState := by
  induction records generalizing store with
  | nil => cases hmem
  | cons first records ih =>
      rw [List.map_cons, List.nodup_cons] at hnodup
      rcases List.mem_cons.mp hmem with rfl | hrest
      · change ((sweepRecords config rpcCall now _ records).1.get _).map _ = _
        rw [get_sweepRecords_of_not_mem config rpcCall now _ hnodup.1, hresolve]
        exact state_applyResolution hget
      · have hkey : record.idempotencyKey ≠ first.idempotencyKey := by
          intro hsame
          apply hnodup.1
          rw [← hsame]
          exact List.mem_map_of_mem hrest
        apply ih _ hnodup.2 hrest
        rw [get_applyResolution_of_ne store now hkey]
        exact hget

theorem nodup_listUnknown
    (hkeyed : ∀ key record, store.get key = some record → record.idempotencyKey = key) :
    (store.listUnknown.map Settlement.idempotencyKey).Nodup := by
  rw [MemorySettlementStore.listUnknown, List.map_filterMap]
  apply store.events.keysNodup.filterMap
  have hsame : ∀ key name, name ∈ ((store.get key).filter
      fun record => record.state == .unknown).map Settlement.idempotencyKey → name = key := by
    intro key name hname
    obtain ⟨record, hrecord, rfl⟩ := Option.map_eq_some_iff.mp hname
    exact hkeyed key record (Option.filter_eq_some_iff.mp hrecord).1
  intro left right name hleft hright
  exact (hsame left name hleft).symm.trans (hsame right name hright)

/-- One sweep moves an unknown record to the state its resolution says. -/
theorem state_reconcileUnknownSettlements
    (hkeyed : ∀ key record, store.get key = some record → record.idempotencyKey = key)
    (hget : store.get key = some record) (hunknown : record.state = .unknown)
    (hresolve : resolve config rpcCall record = some resolution) :
    ((reconcileUnknownSettlements config rpcCall now store).1.get key).map
      Settlement.state = some resolution.state.toState := by
  obtain rfl := hkeyed key record hget
  apply state_sweepRecords store (nodup_listUnknown hkeyed) _ hget hresolve
  apply List.mem_filterMap.mpr
  refine ⟨record.idempotencyKey, ?_, ?_⟩
  · rw [InsertionMap.mem_keys_iff]
    cases hevents : store.events.get record.idempotencyKey with
    | none =>
        have hnil := (store.isNone_get_iff record.idempotencyKey).mp (by rw [hevents]; rfl)
        exact absurd hnil (MemorySettlementStore.stream_ne_nil_of_get hget)
    | some log => rfl
  · rw [hget]
    simp [Option.filter, hunknown]

end Sweep

end X402Facilitator
