import X402Facilitator.App.Provenance

/-!
# A settled record stays settled

Every write of a handler, and every update of a sweep, is made on the strength
of an earlier read: the record that the handler found, or the list of the
sweep.  The record does stay settled in the runs where no settlement of the key
comes between such a read and its write.  Without that condition the catch
branch of a timed out request overwrites the settlement it has itself recorded.
-/

namespace X402Facilitator

open X402Facilitator.Execution

/-- The record of `key` is settled with `transaction`. -/
def SettledWith (store : MemorySettlementStore ℕ) (key transaction : String) : Prop :=
  ∃ record, store.get key = some record ∧ record.state = .settled ∧
    record.txHash = some transaction

def SettlementsHold (store : MemorySettlementStore ℕ) : Prop :=
  ∀ key event, event ∈ store.stream key → event.eventType = .settled →
    ∃ transaction, transaction ≠ "" ∧ event.payload.txHash = some transaction ∧
      SettledWith store key transaction

section Logs

variable {store : MemorySettlementStore ℕ} {key : String}

variable {transaction : String}

theorem SettledWith.of_get_eq {store' : MemorySettlementStore ℕ}
    (hsettled : SettledWith store key transaction) (hget : store'.get key = store.get key) :
    SettledWith store' key transaction := by
  obtain ⟨record, hrecord, hstate⟩ := hsettled
  exact ⟨record, hget.trans hrecord, hstate⟩

/-- A key without a settled record has no settled event. -/
theorem SettlementsHold.ne_settled (hholds : SettlementsHold store)
    (hopen : ∀ transaction, ¬ SettledWith store key transaction)
    {event : SettlementEvent ℕ} (hevent : event ∈ store.stream key) :
    event.eventType ≠ .settled := by
  intro hsettled
  obtain ⟨transaction, -, -, hwith⟩ := hholds key event hevent hsettled
  exact hopen transaction hwith

/-- Saving over a record that is not settled. -/
theorem SettlementsHold.save (hholds : SettlementsHold store) {record : SettlementInput}
    (hopen : ∀ transaction, ¬ SettledWith store record.idempotencyKey transaction)
    (now : ℕ) : SettlementsHold (store.save now record).1 := by
  intro other event hevent hsettled
  rw [MemorySettlementStore.stream_save] at hevent
  by_cases hother : other = record.idempotencyKey
  · subst hother
    rw [if_pos rfl, List.mem_append, List.mem_singleton] at hevent
    rcases hevent with hold | hnew
    · exact absurd hsettled (hholds.ne_settled hopen hold)
    · rw [hnew] at hsettled
      cases hsettled
  · rw [if_neg hother] at hevent
    obtain ⟨transaction, hne, htx, hwith⟩ := hholds other event hevent hsettled
    refine ⟨transaction, hne, htx, hwith.of_get_eq ?_⟩
    rw [MemorySettlementStore.get_save, if_neg hother]

/-- Updating a record that is not settled to a state other than settled. -/
theorem SettlementsHold.updateState (hholds : SettlementsHold store)
    (hopen : ∀ transaction, ¬ SettledWith store key transaction) {state : TargetState}
    (hstate : state ≠ .settled) (details : StateDetails) (now : ℕ) :
    SettlementsHold (store.updateState now key state details).1 := by
  intro other event hevent hsettled
  rw [MemorySettlementStore.stream_updateState] at hevent
  by_cases hother : other = key
  · subst hother
    split at hevent
    · rw [List.mem_append, List.mem_singleton] at hevent
      rcases hevent with hold | hnew
      · exact absurd hsettled (hholds.ne_settled hopen hold)
      · rw [hnew] at hsettled
        cases state with
        | settled => exact absurd rfl hstate
        | failed => cases hsettled
        | unknown => cases hsettled
    · exact absurd hsettled (hholds.ne_settled hopen hevent)
  · rw [if_neg fun h => hother h.1] at hevent
    obtain ⟨transaction, hne, htx, hwith⟩ := hholds other event hevent hsettled
    refine ⟨transaction, hne, htx, hwith.of_get_eq ?_⟩
    rw [MemorySettlementStore.get_updateState, if_neg fun h => hother h.1]

/-- Settling a record that is not settled, or settling it again with the same
transaction. -/
theorem SettlementsHold.settle (hholds : SettlementsHold store) (hne : transaction ≠ "")
    {details : StateDetails} (htransaction : details.txHash = some transaction)
    (hsame : ∀ other, SettledWith store key other → other = transaction) (now : ℕ) :
    SettlementsHold (store.updateState now key .settled details).1 := by
  intro other event hevent hsettled
  by_cases hother : other = key
  · subst hother
    by_cases hnil : store.stream other = []
    · rw [MemorySettlementStore.updateState_of_nil _ _ _ _ hnil, hnil] at hevent
      cases hevent
    · have hwith : SettledWith (store.updateState now other .settled details).1 other
          transaction := by
        refine ⟨_, (MemorySettlementStore.get_updateState _ _ _ _ _ _).trans
          (if_pos ⟨rfl, hnil⟩), rfl, ?_⟩
        change details.txHash.or _ = some transaction
        rw [htransaction]
        rfl
      rw [MemorySettlementStore.stream_updateState, if_pos ⟨rfl, hnil⟩,
        List.mem_append, List.mem_singleton] at hevent
      rcases hevent with hold | hnew
      · obtain ⟨previous, -, htx, hprevious⟩ := hholds other event hold hsettled
        rw [hsame previous hprevious] at htx
        exact ⟨transaction, hne, htx, hwith⟩
      · rw [hnew]
        exact ⟨transaction, hne, htransaction, hwith⟩
  · rw [MemorySettlementStore.stream_updateState, if_neg fun h => hother h.1] at hevent
    obtain ⟨transaction, hne, htx, hwith⟩ := hholds other event hevent hsettled
    refine ⟨transaction, hne, htx, hwith.of_get_eq ?_⟩
    rw [MemorySettlementStore.get_updateState, if_neg fun h => hother h.1]

end Logs

/-- Once a settled event is in the log of a key, the record is settled with one
transaction, then and in every later state. -/
def SettledIsAbsorbing (deployment : Deployment) (meets : World → Action → Prop) : Prop :=
  ∀ w w', Reaches (step deployment) meets .init w → Reaches (step deployment) meets w w' →
    ∀ key event, event ∈ w.store.stream key → event.eventType = .settled →
      ∃ transaction, transaction ≠ "" ∧ SettledWith w.store key transaction ∧
        SettledWith w'.store key transaction

/-- The record that the handler goes by was settled. -/
def Handler.ReadSettled (handler : Handler) : Prop :=
  ∃ record, handler.stage.record = some record ∧ record.state = .settled

/-- A settlement of the key was there when the handler read its record, or is
not there at all. -/
def Handler.MissedNothing (deployment : Deployment) (w : World) (handler : Handler) :
    Prop :=
  ∀ transaction, SettledWith w.store (handler.storeKey deployment) transaction →
    handler.ReadSettled

/-- The handler is about to record the settlement that is there already. -/
def Handler.SettlesAgain (deployment : Deployment) (w : World) (handler : Handler) :
    Prop :=
  ∃ record race result, handler.stage = .owner record race ∧
    race.once = .storing result ∧ result.success = true ∧
    ∀ transaction, SettledWith w.store (handler.storeKey deployment) transaction →
      result.transaction = some transaction

/-- No settlement of the key comes between a read and a write made on it, unless
the write settles the same transaction; a settled record that a handler reads is
its own caller's; and a successful result names its transaction. -/
def NoSettlementMissed (deployment : Deployment) (w : World) : Action → Prop
  | .handler index event _ => ∀ handler, w.handlers.get index = some handler →
      match event with
      | .recordRead => ∀ record, w.store.get (handler.storeKey deployment) = some record →
          record.state = .settled →
            ownedByThisCaller deployment.library handler.request record = true
      | .settleReturned result => result.success = true →
          ∃ transaction, transaction ≠ "" ∧ result.transaction = some transaction
      | .recordSaved => handler.MissedNothing deployment w
      | .outcomeStored =>
          handler.MissedNothing deployment w ∨ handler.SettlesAgain deployment w
      | .failureRecorded => handler.MissedNothing deployment w
      | _ => True
  | .poll sweep answer _ => ∀ record records, w.sweeps sweep = record :: records →
      ∀ transaction, SettledWith w.store record.idempotencyKey transaction →
        answer ≠ .failed ∧ (answer = .success → record.txHash = some transaction)
  | _ => True

/-- What holds of every handler: it does not go by a settled record, and a
successful result names its transaction. -/
structure Stage.Sound (stage : Stage) : Prop where
  unsettled : ∀ record, stage.record = some record → record.state ≠ .settled
  named : ∀ record race result, stage = .owner record race →
    race.once.result = some result → result.success = true →
      ∃ transaction, transaction ≠ "" ∧ result.transaction = some transaction

theorem Stage.Sound.of_record_none {stage : Stage} (hnone : stage.record = none)
    (howner : ∀ record race, stage ≠ .owner record race) : stage.Sound where
  unsettled := by
    intro record hrecord
    rw [hnone] at hrecord
    cases hrecord
  named := fun record race _ hstage => absurd hstage (howner record race)

theorem Handler.sound_start (deployment : Deployment) (request : Request) :
    (Handler.start deployment request).stage.Sound := by
  rw [Handler.start]
  cases validatePaymentBody deployment.networks request <;>
    exact .of_record_none rfl fun _ _ h => by cases h

variable {library : Library} {record : Settlement ℕ} {request : Request} {effect : Effect}
  {event : Event} {race : Race} {handler : Handler} {index now : ℕ} {w : World}

/-- A settled record of the handler's own caller is replied from. -/
theorem replyFromRecord_settled (hstate : record.state = .settled)
    (howned : ownedByThisCaller library request record = true) :
    ∃ reply, replyFromRecord library request record = some reply := by
  rw [replyFromRecord]
  rw [if_pos howned, hstate]
  dsimp only
  split <;> exact ⟨_, rfl⟩

/-- Within the race only a returning `facilitator.settle` brings a result. -/
theorem RaceTransition.result {next : Race} {result : SettleResult}
    (hrace : RaceTransition library request race event next effect)
    (hresult : next.once.result = some result) :
    race.once.result = some result ∨ event = .settleReturned result := by
  cases hrace.onceStep with
  | kept honce =>
      rw [honce] at hresult
      exact Or.inl hresult
  | locked hbefore honce => rw [honce] at hresult; cases hresult
  | threw hbefore honce => rw [honce] at hresult; cases hresult
  | returned hbefore honce =>
      rw [honce] at hresult
      cases hresult
      exact Or.inr rfl
  | advanced hbefore hafter =>
      rw [hafter] at hresult
      cases hresult
      exact Or.inl hbefore

theorem Transition.sound {deployment : Deployment} {next : Handler}
    (hhandler : w.handlers.get index = some handler) (hsound : handler.stage.Sound)
    (hmeets : NoSettlementMissed deployment w (.handler index event now))
    (hadvance : Transition deployment handler (w.view deployment handler) event next
      effect) : next.stage.Sound := by
  have hguard := hmeets handler hhandler
  cases hadvance with
  | rateAllowed hstage => exact .of_record_none rfl fun _ _ h => by cases h
  | rateRefused hstage => exact .of_record_none rfl fun _ _ h => by cases h
  | answered hstage hreply => exact .of_record_none rfl fun _ _ h => by cases h
  | missed hstage hnone =>
      refine ⟨?_, fun _ _ _ h => by cases h⟩
      intro record hrecord hstate
      have hread : w.store.get (handler.storeKey deployment) = some record := hrecord
      obtain ⟨reply, hreply⟩ := replyFromRecord_settled hstate (hguard record hread hstate)
      change (w.store.get (handler.storeKey deployment)).bind _ = none at hnone
      rw [hread, Option.bind_some, hreply] at hnone
      cases hnone
  | saved hstage =>
      refine ⟨fun record hrecord => hsound.unsettled record ?_, fun _ _ _ h => by cases h⟩
      rw [hstage]
      exact hrecord
  | owned hstage houtcome =>
      refine ⟨fun record hrecord => hsound.unsettled record ?_, ?_⟩
      · rw [hstage]
        exact hrecord
      · intro record race result howner hresult
        cases howner
        rw [Race.start] at hresult
        split at hresult <;> cases hresult
  | replayed hstage houtcome => exact .of_record_none rfl fun _ _ h => by cases h
  | conflicted hstage houtcome => exact .of_record_none rfl fun _ _ h => by cases h
  | raced hstage hrace =>
      refine ⟨fun record hrecord => hsound.unsettled record ?_, ?_⟩
      · rw [hstage]
        exact hrecord
      · intro record race result howner hresult hsuccess
        cases howner
        rcases hrace.result hresult with hold | hreturned
        · exact hsound.named _ _ result hstage hold hsuccess
        · subst hreturned
          exact hguard hsuccess

structure Absorbing (w : World) : Prop where
  holds : SettlementsHold w.store
  sound : ∀ index handler, w.handlers.get index = some handler → handler.stage.Sound

theorem Absorbing.init : Absorbing .init where
  holds := fun key event hevent => by simp [World.init] at hevent
  sound := fun index handler hhandler => by simp [World.init] at hhandler

/-- What a handler finds when it has missed nothing: no settlement of its key. -/
theorem Handler.MissedNothing.not_settledWith {deployment : Deployment}
    (hmissed : handler.MissedNothing deployment w) (hsound : handler.stage.Sound)
    (transaction : String) : ¬ SettledWith w.store (handler.storeKey deployment) transaction := by
  intro hwith
  obtain ⟨record, hrecord, hstate⟩ := hmissed transaction hwith
  exact hsound.unsettled record hrecord hstate

theorem Race.result_storing {result : SettleResult} (honce : race.once = .storing result) :
    race.once.result = some result := by
  rw [honce]
  rfl

/-- The writes of a handler keep the settlements of all logs. -/
theorem Absorbing.perform {deployment : Deployment} (habsorbing : Absorbing w)
    (hhandler : w.handlers.get index = some handler)
    (hmeets : NoSettlementMissed deployment w (.handler index event now))
    (hwrites : Writes handler event effect) :
    SettlementsHold (w.perform deployment handler now effect).store := by
  have hguard := hmeets handler hhandler
  have hsound := habsorbing.sound index handler hhandler
  cases hwrites with
  | nothing => exact habsorbing.holds
  | save hstage => exact habsorbing.holds.save (hguard.not_settledWith hsound) now
  | begin hstage => exact habsorbing.holds
  | settle hstage honce hsuccess =>
      obtain ⟨transaction, hne, htransaction⟩ :=
        hsound.named _ _ _ hstage (Race.result_storing honce) hsuccess
      apply habsorbing.holds.settle hne htransaction
      intro other hother
      rcases hguard with hmissed | ⟨_, _, _, hstage', honce', -, hsame⟩
      · exact absurd hother (hmissed.not_settledWith hsound other)
      · rw [hstage] at hstage'
        cases hstage'
        rw [honce] at honce'
        cases honce'
        exact Option.some.inj ((hsame other hother).symm.trans htransaction)
  | reject hstage honce hfailure =>
      rcases hguard with hmissed | ⟨_, _, _, hstage', honce', hsuccess, -⟩
      · exact habsorbing.holds.updateState (hmissed.not_settledWith hsound) (by simp) _ now
      · rw [hstage] at hstage'
        cases hstage'
        rw [honce] at honce'
        cases honce'
        rw [hfailure] at hsuccess
        cases hsuccess
  | complete hstage honce => exact habsorbing.holds
  | release hstage hphase => exact habsorbing.holds
  | failure hstage hphase =>
      apply habsorbing.holds.updateState (hguard.not_settledWith hsound)
      rw [Failure.targetState]
      split <;> simp

/-- The update of a sweep keeps the settlements of all logs. -/
theorem SettlementsHold.resolve {store : MemorySettlementStore ℕ} (hholds : SettlementsHold store)
    {config : ReconcileConfig} {answer : RpcAnswer} (now : ℕ)
    (hguard : ∀ transaction, SettledWith store record.idempotencyKey transaction →
      answer ≠ .failed ∧ (answer = .success → record.txHash = some transaction)) :
    SettlementsHold (applyResolution store now record
      (X402Facilitator.resolve config (fun _ _ => answer) record)) := by
  cases hresolve : X402Facilitator.resolve config (fun _ _ => answer) record with
  | none => exact hholds
  | some resolution =>
      rw [applyResolution_some]
      obtain ⟨txHash, hne, hrecord, htx, hstate⟩ := resolve_txHash hresolve
      have hanswer := resolve_answer hresolve
      rcases hstate with hsettled | hfailed
      · rw [hsettled] at hanswer ⊢
        apply hholds.settle hne htx
        intro other hother
        have hsame := (hguard other hother).2 (hanswer.1 rfl)
        rw [hrecord] at hsame
        exact (Option.some.inj hsame).symm
      · rw [hfailed] at hanswer ⊢
        apply hholds.updateState _ (by simp)
        intro other hother
        exact (hguard other hother).1 (hanswer.2 rfl)

theorem Absorbing.step {deployment : Deployment} {w' : World} {action : Action}
    (habsorbing : Absorbing w) (hmeets : NoSettlementMissed deployment w action)
    (hstep : X402Facilitator.step deployment w action = some w') : Absorbing w' where
  holds := by
    cases steps_of_step hstep with
    | request hnew => exact habsorbing.holds
    | handler hhandler hadvance => exact habsorbing.perform hhandler hmeets hadvance.writes
    | list => exact habsorbing.holds
    | poll hlisted => exact habsorbing.holds.resolve _ (hmeets _ _ hlisted)
  sound := by
    refine handlers_of_step (fun handler => handler.stage.Sound) hstep habsorbing.sound
      (Handler.sound_start deployment) ?_
    intro index event now handler next effect haction hhandler hsound hadvance
    subst haction
    exact hadvance.sound hhandler hsound hmeets

/-- In the runs in which no settlement comes between a read and a write made on
it, a settled record stays settled with the same transaction. -/
theorem settledIsAbsorbing_noSettlementMissed (deployment : Deployment) :
    SettledIsAbsorbing deployment (NoSettlementMissed deployment) := by
  intro w w' hreach hlater key event hevent hsettled
  have habsorbing : Absorbing w :=
    hreach.preserves (fun _ _ _ h hmeets hstep => h.step hmeets hstep) Absorbing.init
  have habsorbing' : Absorbing w' :=
    hlater.preserves (fun _ _ _ h hmeets hstep => h.step hmeets hstep) habsorbing
  have hevent' : event ∈ w'.store.stream key :=
    hlater.preserves (fun _ _ _ h _ hstep => mem_stream_step hstep h) hevent
  obtain ⟨transaction, hne, htx, hwith⟩ := habsorbing.holds key event hevent hsettled
  obtain ⟨transaction', -, htx', hwith'⟩ := habsorbing'.holds key event hevent' hsettled
  rw [htx] at htx'
  cases htx'
  exact ⟨transaction, hne, hwith, hwith'⟩

/-- A settlement is recorded, and the request times out while its resource is
cataloged. -/
def timeoutWhileCataloging : List Action :=
  Sample.claim 0 Sample.request ++ [.handler 0 (.broadcast "ab12") 0] ++
    Sample.settle 0 Sample.settled

/-- The catch branch then records an unknown outcome without a transaction. -/
theorem not_settledIsAbsorbing_anyStep :
    ¬ SettledIsAbsorbing Sample.deployment anyStep := by
  intro habsorbing
  have hsettled : (run (step Sample.deployment) .init timeoutWhileCataloging).map
      (fun w => (w.store.stream "order-1").map SettlementEvent.eventType) =
        some [.initiated, .settled] := by
    decide
  have hunknown : (run (step Sample.deployment) .init (timeoutWhileCataloging ++
      [.handler 0 .timedOut 0, .handler 0 .failureRecorded 0])).map
      (fun w => (w.store.get "order-1").map Settlement.state) = some (some .unknown) := by
    decide
  obtain ⟨w, w', hreach, hlater, hevents, hstate⟩ :=
    exists_reaches_of_run_append hsettled hunknown
  have hmem : SettlementEventType.settled ∈
      (w.store.stream "order-1").map SettlementEvent.eventType := by
    rw [hevents]
    simp
  obtain ⟨event, hevent, htype⟩ := List.mem_map.mp hmem
  obtain ⟨transaction, -, -, record, hget, hsettledState, -⟩ :=
    habsorbing w w' hreach hlater "order-1" event hevent htype
  rw [hget, Option.map_some, hsettledState] at hstate
  cases hstate

section Evidence

variable {deployment : Deployment} {succeeded : String → Prop}

/-- `facilitator.settle` reports a success, and the network confirms a transaction, only when the
transaction has succeeded. -/
def ReportsTruly (succeeded : String → Prop) (w : World) : Action → Prop
  | .handler _ (.settleReturned result) _ => result.success = true →
      ∃ transaction, result.transaction = some transaction ∧ succeeded transaction
  | .poll sweep .success _ => ∀ record records, w.sweeps sweep = record :: records →
      ∀ transaction, record.txHash = some transaction → succeeded transaction
  | _ => True

structure Evidenced (succeeded : String → Prop) (w : World) : Prop where
  records : ∀ key record, w.store.get key = some record → record.state = .settled →
    ∃ transaction, record.txHash = some transaction ∧ succeeded transaction
  results : ∀ index handler, w.handlers.get index = some handler → ∀ result,
    handler.result = some result → result.success = true →
      ∃ transaction, result.transaction = some transaction ∧ succeeded transaction

/-- An update that settles a record has its evidence. -/
theorem records_updateState {store : MemorySettlementStore ℕ} {key : String} {state : TargetState}
    {details : StateDetails} (now : ℕ)
    (hrecords : ∀ key record, store.get key = some record → record.state = .settled →
      ∃ transaction, record.txHash = some transaction ∧ succeeded transaction)
    (hsettles : state = .settled →
      ∃ transaction, details.txHash = some transaction ∧ succeeded transaction)
    (other : String) (record : Settlement ℕ)
    (hget : (store.updateState now key state details).1.get other = some record)
    (hsettled : record.state = .settled) :
    ∃ transaction, record.txHash = some transaction ∧ succeeded transaction := by
  rw [MemorySettlementStore.get_updateState] at hget
  split at hget
  · obtain rfl := Option.some.inj hget
    cases state with
    | settled =>
        obtain ⟨transaction, htransaction, hsucceeded⟩ := hsettles rfl
        refine ⟨transaction, ?_, hsucceeded⟩
        change details.txHash.or _ = some transaction
        rw [htransaction]
        rfl
    | failed => cases hsettled
    | unknown => cases hsettled
  · exact hrecords other record hget hsettled

theorem Evidenced.step {w w' : World} {action : Action} (hevidenced : Evidenced succeeded w)
    (htruly : ReportsTruly succeeded w action)
    (hstep : X402Facilitator.step deployment w action = some w') : Evidenced succeeded w' where
  records := by
    cases steps_of_step hstep with
    | request hnew => exact hevidenced.records
    | list => exact hevidenced.records
    | handler hhandler hadvance =>
        have hresults := hevidenced.results _ _ hhandler
        cases hadvance.writes with
        | save hstage =>
            intro key record hget hsettled
            rw [World.setHandler, World.perform, MemorySettlementStore.get_save] at hget
            split at hget
            · obtain rfl := Option.some.inj hget
              cases hsettled
            · exact hevidenced.records key record hget hsettled
        | settle hstage honce hsuccess =>
            exact records_updateState _ hevidenced.records fun _ => hresults _
              (Handler.result_of_stage hstage (Race.result_storing honce)) hsuccess
        | reject hstage honce hfailure =>
            exact records_updateState _ hevidenced.records fun h => by cases h
        | @failure record race failure hstage hphase =>
            apply records_updateState _ hevidenced.records
            rw [Failure.targetState]
            split <;> exact fun h => by cases h
        | _ => exact hevidenced.records
    | @poll sweep now answer record records hlisted =>
        cases hresolve : resolve deployment.reconcile (fun _ _ => answer) record with
        | none => exact hevidenced.records
        | some resolution =>
            rw [applyResolution_some]
            obtain ⟨txHash, -, hrecord, htx, -⟩ := resolve_txHash hresolve
            refine records_updateState _ hevidenced.records fun hstate => ⟨txHash, htx, ?_⟩
            obtain rfl := (resolve_answer hresolve).1 hstate
            exact htruly record records hlisted txHash hrecord
  results := by
    refine handlers_of_step (fun handler => ∀ result, handler.result = some result →
      result.success = true → ∃ transaction, result.transaction = some transaction ∧
        succeeded transaction) hstep hevidenced.results ?_ ?_
    · intro request result hresult
      rw [Handler.result] at hresult
      split at hresult
      · next hstage => exact absurd hstage Handler.start_ne_owner
      · cases hresult
    · intro index event now handler next effect haction hhandler hbefore hadvance result hresult
      rw [Handler.result] at hresult
      split at hresult
      · next record race hstage =>
          cases hadvance with
          | owned hclaiming houtcome =>
              cases hstage
              rw [Race.start] at hresult
              split at hresult <;> cases hresult
          | raced howner hrace =>
              cases hstage
              rcases hrace.result hresult with hold | hreturned
              · exact hbefore result (Handler.result_of_stage howner hold)
              · subst haction hreturned
                exact htruly
          | _ => cases hstage
      · cases hresult

/-- While both report truly, a record is settled only with a transaction that has succeeded. -/
theorem settled_on_evidence {w : World} {key : String} {record : Settlement ℕ}
    (hreach : Reaches (step deployment) (ReportsTruly succeeded) .init w)
    (hrecord : w.store.get key = some record) (hsettled : record.state = .settled) :
    ∃ transaction, record.txHash = some transaction ∧ succeeded transaction := by
  have hevidenced : Evidenced succeeded w :=
    hreach.preserves (fun _ _ _ h htruly hstep => h.step htruly hstep)
      ⟨fun key record hget => by simp [World.init] at hget,
        fun index handler hhandler => by simp [World.init] at hhandler⟩
  exact hevidenced.records key record hrecord hsettled

end Evidence

theorem settled_on_evidence_timeoutWhileCataloging : ∃ w record,
    run (step Sample.deployment) .init timeoutWhileCataloging = some w ∧
      w.store.get "order-1" = some record ∧ record.state = .settled ∧
        ∃ transaction, record.txHash = some transaction ∧ transaction = "ab12" := by
  have hrun : (run (step Sample.deployment) .init timeoutWhileCataloging).bind
      (fun w => (w.store.get "order-1").map Settlement.state) = some .settled := by
    decide
  obtain ⟨w, hw, hstate⟩ := Option.bind_eq_some_iff.mp hrun
  obtain ⟨record, hrecord, hsettled⟩ := Option.map_eq_some_iff.mp hstate
  have hreach : Reaches (step Sample.deployment) (ReportsTruly (· = "ab12")) .init w := by
    apply reaches_of_run_of_forall _ hw
    intro action haction state
    simp only [timeoutWhileCataloging, Sample.claim, Sample.settle, List.cons_append,
      List.nil_append, List.mem_cons, List.not_mem_nil, or_false] at haction
    rcases haction with rfl | rfl | rfl | rfl | rfl | rfl | rfl | rfl | rfl
    case inr.inr.inr.inr.inr.inr.inl => exact fun _ => ⟨"ab12", rfl, rfl⟩
    all_goals trivial
  exact ⟨w, record, hw, hrecord, hsettled, settled_on_evidence hreach hrecord hsettled⟩

end X402Facilitator
