import X402Facilitator.App.Provenance

/-!
# Unknown settlements can be reconciled

The reconciliation polls an unknown record by its transaction hash and skips a
record that has none.  The hash that the catch branch records is not the one
that was broadcast but `paymentPayload.transaction`, the empty string where the
payload has none: the record is then out of the reach of every sweep, and an
earlier hash is lost with it.
-/

namespace X402Facilitator

open X402Facilitator.Execution

/-- The record carries a transaction hash that is not empty. -/
def Settlement.HasHash (record : Settlement ℕ) : Prop :=
  ∃ txHash, txHash ≠ "" ∧ record.txHash = some txHash

/-- One sweep moves the record of `key` to the state that the network's final
answer for its hash says. -/
def ResolvedBySweep (config : ReconcileConfig) (store : MemorySettlementStore ℕ)
    (key : String) (record : Settlement ℕ) : Prop :=
  ∀ rpcCall now rpcUrl txHash, record.txHash = some txHash →
    config.endpoint record.network = some rpcUrl →
    (rpcCall rpcUrl txHash = .success →
      ((reconcileUnknownSettlements config rpcCall now store).1.get key).map
        Settlement.state = some .settled) ∧
    (rpcCall rpcUrl txHash = .failed →
      ((reconcileUnknownSettlements config rpcCall now store).1.get key).map
        Settlement.state = some .failed)

/-- Every unknown record has a hash and is resolved by a sweep; a handler that
records an unknown outcome records the hash it has broadcast; and no step but a
save takes the hash of a record away. -/
def UnknownReconcilable (deployment : Deployment) (meets : World → Action → Prop) :
    Prop :=
  ∀ w, Reaches (step deployment) meets .init w →
    (∀ key record, w.store.get key = some record → record.state = .unknown →
      record.HasHash ∧ ResolvedBySweep deployment.reconcile w.store key record) ∧
    ∀ action w', meets w action → step deployment w action = some w' →
      (∀ index now handler record race recorded,
        action = .handler index .failureRecorded now →
        w.handlers.get index = some handler → handler.stage = .owner record race →
        w'.store.get (handler.storeKey deployment) = some recorded →
        recorded.state = .unknown → recorded.txHash = race.submitted) ∧
      ∀ key before after, w.store.get key = some before → before.HasHash →
        (∀ index now, action ≠ .handler index .recordSaved now) →
        w'.store.get key = some after → after.HasHash

/-- The record of `key` carries a hash. -/
def World.CarriesHash (w : World) (key : String) : Prop :=
  ∃ record, w.store.get key = some record ∧ record.HasHash

/-- Where the catch branch records an unknown outcome, the payload names the
transaction that was broadcast; and where a failure or a success is recorded
over a hash, the payload, or the result, does not have an empty one. -/
def NamesBroadcast (deployment : Deployment) (w : World) : Action → Prop
  | .handler index event _ => ∀ handler record race,
      w.handlers.get index = some handler → handler.stage = .owner record race →
        match event with
        | .failureRecorded => ∀ failure, race.phase = .recordingFailure failure →
            if failure.outcomeUnknown then
              handler.request.transaction ≠ "" ∧
                race.submitted = some handler.request.transaction
            else w.CarriesHash (handler.storeKey deployment) →
              handler.request.transaction ≠ ""
        | .outcomeStored => ∀ result, race.once = .storing result →
            result.success = true → w.CarriesHash (handler.storeKey deployment) →
              result.transaction ≠ some ""
        | _ => True
  | _ => True

def Stage.NamesTransaction (request : Request) (stage : Stage) : Prop :=
  ∀ record race failure, stage = .owner record race →
    race.phase = .releasing failure ∨ race.phase = .recordingFailure failure →
      failure.transaction = request.transaction

section Naming

variable {library : Library} {request : Request} {race next : Race}
variable {event : Event} {effect : Effect}

variable {failure : Failure}

theorem Race.transaction_of_caught {error : ThrownError}
    (hcaught : race.caught request error = .releasing failure ∨
      race.caught request error = .recordingFailure failure) :
    failure.transaction = request.transaction := by
  rw [caught] at hcaught
  split at hcaught
  · rcases hcaught with h | h <;> cases h
    rfl
  · rcases hcaught with h | h <;> cases h
    rfl

theorem RaceTransition.namesTransaction
    (hrace : RaceTransition library request race event next effect)
    (hnames : ∀ failure, race.phase = .releasing failure ∨
      race.phase = .recordingFailure failure →
        failure.transaction = request.transaction) (hphase : next.phase = .releasing failure ∨
      next.phase = .recordingFailure failure) : failure.transaction = request.transaction := by
  cases hrace.phaseStep with
  | kept hkept heffect =>
      rw [hkept] at hphase
      exact hnames failure hphase
  | threw hracing hcaught honce | timedOut hracing hcaught =>
      rw [hcaught] at hphase
      exact Race.transaction_of_caught hphase
  | answered hracing hanswered heffect =>
      rw [hanswered] at hphase
      rcases hphase with h | h <;> cases h
  | released hreleasing hrecording =>
      rw [hrecording] at hphase
      rcases hphase with h | h
      · cases h
      · cases h
        exact hnames failure (Or.inl hreleasing)
  | failureRecorded hrecording hanswered =>
      rw [hanswered] at hphase
      rcases hphase with h | h <;> cases h

end Naming

section Records

variable {deployment : Deployment} {w w' : World} {handler next : Handler}
variable {event : Event} {effect : Effect} {view : View}

theorem Transition.namesTransaction
    (hadvance : Transition deployment handler view event next effect)
    (hnames : handler.stage.NamesTransaction handler.request) :
    next.stage.NamesTransaction next.request := by
  intro record race failure hstage hphase
  rw [hadvance.request_eq]
  cases hadvance with
  | owned hclaiming houtcome =>
      cases hstage
      rcases hphase with h | h <;> cases h
  | raced howner hrace =>
      cases hstage
      exact hrace.namesTransaction (fun failure => hnames _ _ failure howner) hphase
  | _ => cases hstage

variable {after before record : Settlement ℕ} {details : StateDetails} {key other : String}
  {now index : ℕ} {state : TargetState} {store : MemorySettlementStore ℕ}

/-- An update keeps a hash unless it brings an empty one. -/
theorem hasHash_of_updateState (hbefore : store.get other = some before) (hhash : before.HasHash)
    (hdetails : other = key → details.txHash ≠ some "")
    (hafter : (store.updateState now key state details).1.get other = some after) :
    after.HasHash := by
  rw [MemorySettlementStore.get_updateState] at hafter
  split at hafter
  · next hkey =>
      cases hafter
      rw [hbefore]
      cases htx : details.txHash with
      | none =>
          obtain ⟨txHash, hne, hrecord⟩ := hhash
          refine ⟨txHash, hne, ?_⟩
          change details.txHash.or before.txHash = some txHash
          rw [htx]
          exact hrecord
      | some txHash =>
          refine ⟨txHash, fun hempty => hdetails hkey.1 (hempty ▸ htx), ?_⟩
          change details.txHash.or before.txHash = some txHash
          rw [htx]
          rfl
  · rw [hbefore] at hafter
    cases hafter
    exact hhash

/-- An update that brings a hash leaves a record with it. -/
theorem txHash_of_updateState {txHash : String} (hne : store.stream key ≠ [])
    (hdetails : details.txHash = some txHash)
    (hafter : (store.updateState now key state details).1.get key = some after) :
    after.txHash = some txHash := by
  rw [MemorySettlementStore.get_updateState, if_pos ⟨rfl, hne⟩] at hafter
  cases hafter
  change details.txHash.or _ = some txHash
  rw [hdetails]
  rfl

theorem state_of_updateState (hne : store.stream key ≠ [])
    (hafter : (store.updateState now key state details).1.get key = some after) :
    after.state = state.toState := by
  rw [MemorySettlementStore.get_updateState, if_pos ⟨rfl, hne⟩] at hafter
  cases hafter
  rfl

/-- An unknown record after an update was there before, or the update made it. -/
theorem unknown_of_updateState
    (hget : (store.updateState now key state details).1.get other = some record)
    (hunknown : record.state = .unknown) :
    store.get other = some record ∨ (other = key ∧ state = .unknown) := by
  rw [MemorySettlementStore.get_updateState] at hget
  split at hget
  · next hkey =>
      right
      cases hget
      refine ⟨hkey.1, ?_⟩
      cases state with
      | unknown => rfl
      | settled => cases hunknown
      | failed => cases hunknown
  · exact Or.inl hget

theorem Failure.targetState_eq_unknown_iff (failure : Failure) :
    failure.targetState = .unknown ↔ failure.outcomeUnknown = true := by
  rw [targetState]
  split
  · next hunknown => simp [hunknown]
  · next hknown => simp [hknown]

structure Hashed (deployment : Deployment) (w : World) : Prop where
  traced : Traced deployment w
  names : ∀ index handler, w.handlers.get index = some handler →
    handler.stage.NamesTransaction handler.request
  unknown : ∀ key record, w.store.get key = some record → record.state = .unknown →
    record.HasHash

theorem Hashed.init (deployment : Deployment) : Hashed deployment .init where
  traced := .init deployment
  names := fun index handler hhandler => by simp [World.init] at hhandler
  unknown := fun key record hget => by simp [World.init] at hget

/-- The unknown outcome that a handler records carries the hash that it has
broadcast. -/
theorem Hashed.failure {record : Option (Settlement ℕ)} {race : Race} {failure : Failure}
    {recorded : Settlement ℕ} (hhashed : Hashed deployment w)
    (hhandler : w.handlers.get index = some handler) (hstage : handler.stage = .owner record race)
    (hphase : race.phase = .recordingFailure failure) (hunknown : failure.outcomeUnknown = true)
    (hmeets : NamesBroadcast deployment w (.handler index .failureRecorded now))
    (hget : (w.store.updateState now (handler.storeKey deployment) failure.targetState
      failure.details).1.get (handler.storeKey deployment) = some recorded) :
    recorded.HasHash ∧ recorded.txHash = race.submitted := by
  have hguard := hmeets handler record race hhandler hstage failure hphase
  rw [if_pos hunknown] at hguard
  have hsaved := hhashed.traced.saved index handler hhandler
    (Handler.hasSaved_of_isOwner (Handler.isOwner_of_stage hstage))
  have hnamed := hhashed.names index handler hhandler record race failure hstage
    (Or.inr hphase)
  have htx : recorded.txHash = some handler.request.transaction :=
    txHash_of_updateState hsaved (congrArg some hnamed) hget
  exact ⟨⟨_, hguard.1, htx⟩, htx.trans hguard.2.symm⟩

/-- A new unknown record of a handler's key comes from its catch branch. -/
theorem Hashed.unknown_perform (hhashed : Hashed deployment w)
    (hhandler : w.handlers.get index = some handler)
    (hmeets : NamesBroadcast deployment w (.handler index event now))
    (hwrites : Writes handler event effect)
    (hget : (w.perform deployment handler now effect).store.get key = some record)
    (hunknown : record.state = .unknown) : record.HasHash := by
  cases hwrites with
  | nothing => exact hhashed.unknown key record hget hunknown
  | begin hstage => exact hhashed.unknown key record hget hunknown
  | complete hstage honce => exact hhashed.unknown key record hget hunknown
  | release hstage hphase => exact hhashed.unknown key record hget hunknown
  | save hstage =>
      simp only [World.perform, MemorySettlementStore.get_save] at hget
      split at hget
      · cases hget
        cases hunknown
      · exact hhashed.unknown key record hget hunknown
  | settle hstage honce hsuccess | reject hstage honce hfailure =>
      rcases unknown_of_updateState hget hunknown with hold | ⟨-, hstate⟩
      · exact hhashed.unknown key record hold hunknown
      · cases hstate
  | failure hstage hphase =>
      rcases unknown_of_updateState hget hunknown with hold | ⟨rfl, hstate⟩
      · exact hhashed.unknown key record hold hunknown
      · exact (hhashed.failure hhandler hstage hphase
          ((Failure.targetState_eq_unknown_iff _).mp hstate) hmeets hget).1

/-- What a sweep writes is settled or failed, with the hash that was polled. -/
theorem resolution_cases {config : ReconcileConfig} {answer : RpcAnswer} {resolution : Resolution}
    (hresolve : resolve config (fun _ _ => answer) record = some resolution) :
    resolution.state ≠ .unknown ∧ resolution.details.txHash ≠ some "" := by
  obtain ⟨txHash, hne, -, htx, hstate⟩ := resolve_txHash hresolve
  constructor
  · rcases hstate with h | h <;> simp [h]
  · rw [htx]
    simpa using hne

theorem Hashed.step {action : Action} (hhashed : Hashed deployment w)
    (hmeets : NamesBroadcast deployment w action)
    (hstep : X402Facilitator.step deployment w action = some w') :
    Hashed deployment w' where
  traced := hhashed.traced.step hstep
  names := by
    refine handlers_of_step (fun handler => handler.stage.NamesTransaction handler.request)
      hstep hhashed.names ?_ ?_
    · intro request record race failure hstage
      exact absurd hstage Handler.start_ne_owner
    · intro index event now handler next effect haction hhandler hnames hadvance
      exact hadvance.namesTransaction hnames
  unknown := by
    intro key record hget hunknown
    cases steps_of_step hstep with
    | request hnew => exact hhashed.unknown key record hget hunknown
    | handler hhandler hadvance =>
        exact hhashed.unknown_perform hhandler hmeets hadvance.writes hget hunknown
    | list => exact hhashed.unknown key record hget hunknown
    | @poll sweep now answer listed records hlisted =>
        cases hresolve : resolve deployment.reconcile (fun _ _ => answer) listed with
        | none =>
            simp only [hresolve] at hget
            exact hhashed.unknown key record hget hunknown
        | some resolution =>
            simp only [hresolve, applyResolution_some] at hget
            rcases unknown_of_updateState hget hunknown with hold | ⟨-, hstate⟩
            · exact hhashed.unknown key record hold hunknown
            · exact absurd hstate (resolution_cases hresolve).1

/-- No write of a handler but a save takes a hash away. -/
theorem Hashed.hasHash_perform (hhashed : Hashed deployment w)
    (hhandler : w.handlers.get index = some handler)
    (hmeets : NamesBroadcast deployment w (.handler index event now))
    (hwrites : Writes handler event effect) (hsave : event ≠ .recordSaved)
    (hbefore : w.store.get key = some before) (hhash : before.HasHash)
    (hafter : (w.perform deployment handler now effect).store.get key = some after) :
    after.HasHash := by
  have hsame : w.store.get key = some after → after.HasHash := by
    intro hget
    rw [hbefore] at hget
    cases hget
    exact hhash
  have hcarries : key = handler.storeKey deployment →
      w.CarriesHash (handler.storeKey deployment) :=
    fun hkey => ⟨before, hkey ▸ hbefore, hhash⟩
  cases hwrites with
  | nothing | begin hstage | complete hstage honce | release hstage hphase => exact hsame hafter
  | save hstage => exact absurd rfl hsave
  | @settle record race result hstage honce hsuccess =>
      apply hasHash_of_updateState hbefore hhash _ hafter
      intro hkey
      exact hmeets handler record race hhandler hstage result honce hsuccess (hcarries hkey)
  | @reject record race result hstage honce hfailure =>
      apply hasHash_of_updateState hbefore hhash _ hafter
      intro hkey hempty
      have hne := (Option.filter_eq_some_iff.mp hempty).2
      simp at hne
  | @failure record race failure hstage hphase =>
      apply hasHash_of_updateState hbefore hhash _ hafter
      intro hkey hempty
      have hguard := hmeets handler record race hhandler hstage failure hphase
      have hnamed := hhashed.names index handler hhandler record race failure hstage
        (Or.inr hphase)
      have htransaction : handler.request.transaction = "" :=
        hnamed.symm.trans (Option.some.inj hempty)
      split at hguard
      · exact hguard.1 htransaction
      · exact hguard (hcarries hkey) htransaction

end Records

/-- In the runs whose payloads name the broadcast transaction, every unknown
settlement can be reconciled. -/
theorem unknownReconcilable_namesBroadcast (deployment : Deployment) :
    UnknownReconcilable deployment (NamesBroadcast deployment) := by
  intro w hreach
  have hhashed : Hashed deployment w :=
    hreach.preserves (fun _ _ _ h hmeets hstep => h.step hmeets hstep) (.init deployment)
  refine ⟨?_, ?_⟩
  · intro key record hget hunknown
    have hhash := hhashed.unknown key record hget hunknown
    refine ⟨hhash, ?_⟩
    intro rpcCall now rpcUrl txHash htx hendpoint
    have hne : txHash ≠ "" := by
      obtain ⟨other, hne, hother⟩ := hhash
      rw [htx] at hother
      cases hother
      exact hne
    have hanswers := resolve_of_answer rpcCall hne htx hendpoint
    constructor
    · intro hanswer
      obtain ⟨resolution, hresolve, hstate⟩ := hanswers.1 hanswer
      rw [state_reconcileUnknownSettlements hhashed.traced.keyed hget hunknown hresolve,
        hstate]
      rfl
    · intro hanswer
      obtain ⟨resolution, hresolve, hstate⟩ := hanswers.2 hanswer
      rw [state_reconcileUnknownSettlements hhashed.traced.keyed hget hunknown hresolve,
        hstate]
      rfl
  · intro action w' hmeets hstep
    refine ⟨?_, ?_⟩
    · rintro index now handler record race recorded rfl hhandler hstage hget hunknown
      obtain ⟨next, effect, hrace, rfl⟩ := race_of_step hhandler hstage hstep
      cases hrace with
      | @failureRecorded failure hphase =>
          have hsaved := hhashed.traced.saved index handler hhandler
            (Handler.hasSaved_of_isOwner (Handler.isOwner_of_stage hstage))
          have hstate := (state_of_updateState hsaved hget).symm.trans hunknown
          have htarget : failure.targetState = .unknown := by
            cases htarget : failure.targetState with
            | unknown => rfl
            | settled | failed => rw [htarget] at hstate; cases hstate
          exact (hhashed.failure hhandler hstage hphase
            ((Failure.targetState_eq_unknown_iff failure).mp htarget) hmeets hget).2
    · intro key before after hbefore hhash hsave hafter
      cases steps_of_step hstep with
      | request hnew =>
          rw [show w.store.get key = some after from hafter] at hbefore
          cases hbefore
          exact hhash
      | handler hhandler hadvance =>
          apply hhashed.hasHash_perform hhandler hmeets hadvance.writes _ hbefore hhash hafter
          intro hevent
          subst hevent
          exact hsave _ _ rfl
      | list =>
          rw [show w.store.get key = some after from hafter] at hbefore
          cases hbefore
          exact hhash
      | @poll sweep now answer listed records hlisted =>
          cases hresolve : resolve deployment.reconcile (fun _ _ => answer) listed with
          | none =>
              simp only [hresolve] at hafter
              rw [show w.store.get key = some after from hafter] at hbefore
              cases hbefore
              exact hhash
          | some resolution =>
              simp only [hresolve, applyResolution_some] at hafter
              exact hasHash_of_updateState hbefore hhash
                (fun _ => (resolution_cases hresolve).2) hafter

def timeoutWithoutTransaction : List Action :=
  Sample.claim 0 Sample.request ++ [.handler 0 (.broadcast "ab12") 0, .handler 0 .timedOut 0,
    .handler 0 .failureRecorded 0]

/-- Then the unknown record has an empty hash. -/
theorem not_unknownReconcilable_anyStep :
    ¬ UnknownReconcilable Sample.deployment anyStep := by
  intro hreconcilable
  have hrun : (run (step Sample.deployment) .init timeoutWithoutTransaction).map
      (fun w => (w.store.get "order-1").map fun record => (record.state, record.txHash)) =
        some (some (.unknown, some "")) := by
    decide
  obtain ⟨w, hreach, hobserved⟩ := exists_reaches_of_run hrun
  obtain ⟨record, hget, hpair⟩ := Option.map_eq_some_iff.mp hobserved
  obtain ⟨hunknown, hempty⟩ := Prod.mk.inj hpair
  obtain ⟨⟨txHash, hne, htx⟩, -⟩ := (hreconcilable w hreach).1 "order-1" record hget hunknown
  rw [hempty] at htx
  exact hne (Option.some.inj htx).symm

end X402Facilitator
