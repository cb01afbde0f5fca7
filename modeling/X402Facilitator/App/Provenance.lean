import X402Facilitator.App.System

/-!
# Where records and responses come from

`Writes` lists the writes a handler makes, each with what the handler holds at
that moment.  The invariants that follow from it trace what the stores contain
back to handlers: a stored response is the result of a `facilitator.settle` of
a handler of that key, and a record that has left the state `submitted` was
written by an owner of that key.
-/

namespace X402Facilitator

open X402Facilitator.Execution

namespace Handler

variable (handler : Handler)

/-- The result of the handler's `facilitator.settle`. -/
def result : Option SettleResult :=
  match handler.stage with
  | .owner _ race => race.once.result
  | _ => none

def isOwner : Bool :=
  match handler.stage with
  | .owner _ _ => true
  | _ => false

def hasSaved : Bool :=
  match handler.stage with
  | .claiming _ => true
  | .owner _ _ => true
  | _ => false

theorem hasSaved_of_isOwner {handler : Handler} (howner : handler.isOwner = true) :
    handler.hasSaved = true := by
  rw [isOwner] at howner
  rw [hasSaved]
  split at howner
  · next hstage => rw [hstage]
  · cases howner

variable {race : Race} {record : Option (Settlement ℕ)}

theorem result_of_stage {handler : Handler} {result : SettleResult}
    (hstage : handler.stage = .owner record race) (hresult : race.once.result = some result) :
    handler.result = some result := by
  rw [Handler.result, hstage]
  exact hresult

theorem isOwner_of_stage {handler : Handler} (hstage : handler.stage = .owner record race) :
    handler.isOwner = true := by
  rw [isOwner, hstage]

end Handler

inductive Writes (handler : Handler) : Event → Effect → Prop
  | nothing {event : Event} : Writes handler event .nothing
  | save {record : Option (Settlement ℕ)} (hstage : handler.stage = .savingRecord record) :
      Writes handler .recordSaved .save
  | begin {record : Option (Settlement ℕ)} (hstage : handler.stage = .claiming record) :
      Writes handler .claimBegun .begin
  | settle {record : Option (Settlement ℕ)} {race : Race} {result : SettleResult}
      (hstage : handler.stage = .owner record race) (honce : race.once = .storing result)
      (hsuccess : result.success = true) :
      Writes handler .outcomeStored (.settle result.settledDetails)
  | reject {record : Option (Settlement ℕ)} {race : Race} {result : SettleResult}
      (hstage : handler.stage = .owner record race) (honce : race.once = .storing result)
      (hfailure : result.success = false) :
      Writes handler .outcomeStored (.update .failed result.failedDetails)
  | complete {record : Option (Settlement ℕ)} {race : Race} {result : SettleResult}
      (hstage : handler.stage = .owner record race)
      (honce : race.once = .completing result) :
      Writes handler (.outcomeCompleted true) (.complete result.body)
  | release {record : Option (Settlement ℕ)} {race : Race} {failure : Failure}
      (hstage : handler.stage = .owner record race)
      (hphase : race.phase = .releasing failure) : Writes handler .claimReleased .release
  | failure {record : Option (Settlement ℕ)} {race : Race} {failure : Failure}
      (hstage : handler.stage = .owner record race)
      (hphase : race.phase = .recordingFailure failure) :
      Writes handler .failureRecorded (.update failure.targetState failure.details)

section Moves

variable {deployment : Deployment} {handler next : Handler} {view : View}
variable {event : Event} {effect : Effect}

theorem Transition.writes
    (hadvance : Transition deployment handler view event next effect) :
    Writes handler event effect := by
  cases hadvance with
  | rateAllowed hstage => exact .nothing
  | rateRefused hstage => exact .nothing
  | answered hstage hreply => exact .nothing
  | missed hstage hnone => exact .nothing
  | saved hstage => exact .save hstage
  | owned hstage houtcome => exact .begin hstage
  | replayed hstage houtcome => exact .nothing
  | conflicted hstage houtcome => exact .nothing
  | raced hstage hrace =>
      cases hrace with
      | locked honce | lockTimedOut honce | lockLost | broadcast honce | returned honce
      | threw honce | metered honce => exact .nothing
      | stored honce hsuccess => exact .settle hstage honce hsuccess
      | rejected honce hfailure => exact .reject hstage honce hfailure
      | cataloged honce => exact .nothing
      | @completed result recorded honce =>
          cases recorded with
          | true => exact .complete hstage honce
          | false => exact .nothing
      | timedOut hracing => exact .nothing
      | released hreleasing => exact .release hstage hreleasing
      | failureRecorded hrecording => exact .failure hstage hrecording

variable {result : SettleResult}

/-- A result stays. -/
theorem RaceTransition.result_mono {library : Library} {request : Request} {race after : Race}
    (hrace : RaceTransition library request race event after effect)
    (hresult : race.once.result = some result) : after.once.result = some result := by
  cases hrace.onceStep with
  | kept honce => rw [honce]; exact hresult
  | locked hbefore honce => rw [hbefore] at hresult; cases hresult
  | threw hbefore honce => rw [hbefore] at hresult; cases hresult
  | returned hbefore honce => rw [hbefore] at hresult; cases hresult
  | advanced hbefore hafter =>
      rw [hbefore] at hresult
      rw [hafter, hresult]

theorem Transition.result_mono (hadvance : Transition deployment handler view event next effect)
    (hresult : handler.result = some result) : next.result = some result := by
  rw [Handler.result] at hresult
  split at hresult
  · next record race howner =>
      obtain ⟨after, hrace, rfl⟩ := hadvance.race_of_owner howner
      exact hrace.result_mono hresult
  · cases hresult

/-- Owners stay owners. -/
theorem Transition.isOwner_mono
    (hadvance : Transition deployment handler view event next effect)
    (howner : handler.isOwner = true) : next.isOwner = true := by
  rw [Handler.isOwner] at howner
  split at howner
  · next record race hstage =>
      obtain ⟨after, hrace, rfl⟩ := hadvance.race_of_owner hstage
      rfl
  · cases howner

/-- A handler that has saved has just done so, or had done so before. -/
theorem Transition.hasSaved
    (hadvance : Transition deployment handler view event next effect)
    (hsaved : next.hasSaved = true) : effect = .save ∨ handler.hasSaved = true := by
  cases hadvance with
  | saved hstage => exact Or.inl rfl
  | owned hstage houtcome | raced hstage hrace =>
      right
      rw [Handler.hasSaved, hstage]
  | _ => cases hsaved

end Moves

section Handlers

variable (deployment : Deployment) (w : World)

def World.OwnerOf (key : String) : Prop :=
  ∃ index handler, w.handlers.get index = some handler ∧
    handler.storeKey deployment = key ∧ handler.isOwner = true

def World.ResultOf (key : String) (response : Json) : Prop :=
  ∃ index handler result, w.handlers.get index = some handler ∧
    handler.storeKey deployment = key ∧ handler.result = some result ∧
    response = result.body

def World.ClaimResultOf (key : String) (response : Json) : Prop :=
  ∃ index handler result, w.handlers.get index = some handler ∧
    handler.claimKey deployment = key ∧ handler.result = some result ∧
    response = result.body

end Handlers

section Persistence

variable {deployment : Deployment} {w w' : World} {action : Action} {index : ℕ}
variable {handler : Handler}

/-- What every move of a handler keeps, a handler keeps through a step. -/
theorem exists_after_of_mono (holds : Handler → Prop)
    (hstep : step deployment w action = some w')
    (hmono : ∀ view event next effect, holds handler →
      Transition deployment handler view event next effect → holds next)
    (hhandler : w.handlers.get index = some handler) (hholds : holds handler) :
    ∃ after, w'.handlers.get index = some after ∧ after.request = handler.request ∧
      holds after := by
  obtain ⟨after, hafter, hrequest⟩ := exists_after_of_step hstep hhandler
  refine ⟨after, hafter, hrequest, ?_⟩
  rcases handler_cases_of_step hstep hafter with hnew | hmoved | hold
  · obtain ⟨request, rfl, rfl⟩ := hnew
    simp only [step, hhandler] at hstep
    cases hstep
  · obtain ⟨event, now, before, effect, -, hbefore, hadvance⟩ := hmoved
    rw [hhandler] at hbefore
    cases hbefore
    exact hmono _ event after effect hholds hadvance
  · rw [hhandler] at hold
    cases hold
    exact hholds

variable {key : String} {response : Json}

theorem World.OwnerOf.step (howner : w.OwnerOf deployment key)
    (hstep : step deployment w action = some w') : w'.OwnerOf deployment key := by
  obtain ⟨index, handler, hhandler, hkey, howner⟩ := howner
  obtain ⟨after, hafter, hrequest, hstill⟩ :=
    exists_after_of_mono (fun handler => handler.isOwner = true) hstep
      (fun _ _ _ _ howner hadvance => hadvance.isOwner_mono howner) hhandler howner
  refine ⟨index, after, hafter, ?_, hstill⟩
  rw [Handler.storeKey, hrequest]
  exact hkey

theorem World.ResultOf.step (hresult : w.ResultOf deployment key response)
    (hstep : step deployment w action = some w') : w'.ResultOf deployment key response := by
  obtain ⟨index, handler, result, hhandler, hkey, hresult, hbody⟩ := hresult
  obtain ⟨after, hafter, hrequest, hstill⟩ :=
    exists_after_of_mono (fun handler => handler.result = some result) hstep
      (fun _ _ _ _ hresult hadvance => hadvance.result_mono hresult) hhandler hresult
  refine ⟨index, after, result, hafter, ?_, hstill, hbody⟩
  rw [Handler.storeKey, hrequest]
  exact hkey

theorem World.ClaimResultOf.step (hresult : w.ClaimResultOf deployment key response)
    (hstep : step deployment w action = some w') : w'.ClaimResultOf deployment key response := by
  obtain ⟨index, handler, result, hhandler, hkey, hresult, hbody⟩ := hresult
  obtain ⟨after, hafter, hrequest, hstill⟩ :=
    exists_after_of_mono (fun handler => handler.result = some result) hstep
      (fun _ _ _ _ hresult hadvance => hadvance.result_mono hresult) hhandler hresult
  refine ⟨index, after, result, hafter, ?_, hstill, hbody⟩
  rw [Handler.claimKey, hrequest]
  exact hkey

end Persistence

structure Traced (deployment : Deployment) (w : World) : Prop where
  saved : ∀ index handler, w.handlers.get index = some handler →
    handler.hasSaved = true → w.store.stream (handler.storeKey deployment) ≠ []
  keyed : ∀ key record, w.store.get key = some record → record.idempotencyKey = key
  owned : ∀ key record, w.store.get key = some record → record.state ≠ .submitted →
    w.OwnerOf deployment key
  responded : ∀ key record, w.store.get key = some record →
    record.response = .null ∨ w.ResultOf deployment key record.response
  completed : ∀ key statusCode response,
    w.idempotency.records.get key = some (.completed statusCode response) →
      w.ClaimResultOf deployment key response
  listed : ∀ sweep record, record ∈ w.sweeps sweep →
    w.OwnerOf deployment record.idempotencyKey

theorem Traced.init (deployment : Deployment) : Traced deployment .init where
  saved := fun index handler hhandler => by simp [World.init] at hhandler
  keyed := fun key record hget => by simp [World.init] at hget
  owned := fun key record hget => by simp [World.init] at hget
  responded := fun key record hget => by simp [World.init] at hget
  completed := fun key statusCode response hclaim => by simp [World.init] at hclaim
  listed := fun sweep record hlisted => by simp [World.init] at hlisted

structure RecordsFrom (store : MemorySettlementStore ℕ) (owned : String → Prop)
    (responded : String → Json → Prop) : Prop where
  keyed : ∀ key record, store.get key = some record → record.idempotencyKey = key
  owned : ∀ key record, store.get key = some record → record.state ≠ .submitted →
    owned key
  responded : ∀ key record, store.get key = some record →
    record.response = .null ∨ responded key record.response

section Records

variable {store : MemorySettlementStore ℕ} {owned : String → Prop}
variable {responded : String → Json → Prop}

/-- A saved record is `submitted` and has no response. -/
theorem RecordsFrom.save (hfrom : RecordsFrom store owned responded) (now : ℕ)
    (record : SettlementInput) :
    RecordsFrom (store.save now record).1 owned responded := by
  constructor
  · intro key found hget
    rw [MemorySettlementStore.get_save] at hget
    split at hget
    · next hkey => cases hget; exact hkey.symm
    · exact hfrom.keyed key found hget
  · intro key found hget hstate
    rw [MemorySettlementStore.get_save] at hget
    split at hget
    · cases hget; exact absurd rfl hstate
    · exact hfrom.owned key found hget hstate
  · intro key found hget
    rw [MemorySettlementStore.get_save] at hget
    split at hget
    · cases hget; exact Or.inl rfl
    · exact hfrom.responded key found hget

/-- An update is made by an owner, with a result of the key or none. -/
theorem RecordsFrom.updateState (hfrom : RecordsFrom store owned responded) {key : String}
    {state : TargetState} {details : StateDetails} (howned : owned key)
    (hresponse : details.response = .null ∨ responded key details.response) (now : ℕ) :
    RecordsFrom (store.updateState now key state details).1 owned responded := by
  constructor
  · intro other found hget
    rw [MemorySettlementStore.get_updateState] at hget
    split at hget
    · next hother =>
        cases hget
        cases hbefore : store.get other with
        | none => exact hother.1.symm
        | some record => exact hfrom.keyed other record hbefore
    · exact hfrom.keyed other found hget
  · intro other found hget hstate
    rw [MemorySettlementStore.get_updateState] at hget
    split at hget
    · next hother => rw [hother.1]; exact howned
    · exact hfrom.owned other found hget hstate
  · intro other found hget
    rw [MemorySettlementStore.get_updateState] at hget
    split at hget
    · next hother =>
        cases hget
        have hbase : ((store.get other).getD (.seed key now)).response = .null ∨
            responded other ((store.get other).getD (.seed key now)).response := by
          cases hbefore : store.get other with
          | none => exact Or.inl rfl
          | some record => exact hfrom.responded other record hbefore
        change details.response.orElse _ = .null ∨ responded other (details.response.orElse _)
        by_cases hnull : details.response.isNullish = true
        · rw [Json.orElse, if_pos hnull]
          exact hbase
        · rw [Json.orElse, if_neg hnull, hother.1]
          exact hresponse
    · exact hfrom.responded other found hget

theorem RecordsFrom.mono (hfrom : RecordsFrom store owned responded)
    {owned' : String → Prop} {responded' : String → Json → Prop}
    (howned : ∀ key, owned key → owned' key)
    (hresponded : ∀ key response, responded key response → responded' key response) :
    RecordsFrom store owned' responded' where
  keyed := hfrom.keyed
  owned := fun key record hget hstate => howned key (hfrom.owned key record hget hstate)
  responded := fun key record hget =>
    (hfrom.responded key record hget).imp_right (hresponded key _)

end Records

section Step

variable {deployment : Deployment} {w w' : World} {action : Action}

theorem Traced.records (htraced : Traced deployment w) :
    RecordsFrom w.store (w.OwnerOf deployment) (w.ResultOf deployment) :=
  ⟨htraced.keyed, htraced.owned, htraced.responded⟩

/-- A handler writes records that go back to itself. -/
theorem Traced.records_perform {index now : ℕ} {handler : Handler} {event : Event}
    {effect : Effect} (htraced : Traced deployment w)
    (hhandler : w.handlers.get index = some handler)
    (hwrites : Writes handler event effect) :
    RecordsFrom (w.perform deployment handler now effect).store (w.OwnerOf deployment)
      (w.ResultOf deployment) := by
  have hrecords := htraced.records
  have howned : ∀ record race, handler.stage = .owner record race →
      w.OwnerOf deployment (handler.storeKey deployment) := fun record race hstage =>
    ⟨index, handler, hhandler, rfl, Handler.isOwner_of_stage hstage⟩
  have hresult : ∀ record race result, handler.stage = .owner record race →
      race.once = .storing result →
      w.ResultOf deployment (handler.storeKey deployment) result.body := by
    intro record race result hstage honce
    refine ⟨index, handler, result, hhandler, rfl, ?_, rfl⟩
    exact Handler.result_of_stage hstage (by rw [honce]; rfl)
  cases hwrites with
  | nothing => exact hrecords
  | save hstage => exact hrecords.save _ _
  | begin hstage => exact hrecords
  | settle hstage honce hsuccess | reject hstage honce hfailure =>
      exact hrecords.updateState (howned _ _ hstage) (Or.inr (hresult _ _ _ hstage honce)) _
  | complete hstage honce => exact hrecords
  | release hstage hphase => exact hrecords
  | failure hstage hphase =>
      exact hrecords.updateState (howned _ _ hstage) (Or.inl rfl) _

theorem Traced.records_step (htraced : Traced deployment w)
    (hstep : step deployment w action = some w') :
    RecordsFrom w'.store (w'.OwnerOf deployment) (w'.ResultOf deployment) := by
  have hmono : RecordsFrom w'.store (w.OwnerOf deployment) (w.ResultOf deployment) := by
    cases steps_of_step hstep with
    | request hnew => exact htraced.records
    | handler hhandler hadvance => exact htraced.records_perform hhandler hadvance.writes
    | list => exact htraced.records
    | @poll sweep now answer record records hlisted =>
        cases hresolve : resolve deployment.reconcile (fun _ _ => answer) record with
        | none => exact htraced.records
        | some resolution =>
            have hmem : record ∈ w.sweeps sweep := by
              rw [hlisted]
              exact List.mem_cons_self
            have hnull := resolve_response hresolve
            simp only [applyResolution_some]
            exact htraced.records.updateState (htraced.listed sweep record hmem)
              (Or.inl hnull) now
  exact hmono.mono (fun _ howner => howner.step hstep) fun _ _ hresult => hresult.step hstep

variable {key : String}

/-- A completed claim was there before, or the handler has just completed it. -/
theorem Traced.completed_step (htraced : Traced deployment w)
    (hstep : step deployment w action = some w') {statusCode : ℕ} {response : Json}
    (hclaim : w'.idempotency.records.get key = some (.completed statusCode response)) :
    w'.ClaimResultOf deployment key response := by
  suffices hbefore : w.ClaimResultOf deployment key response from hbefore.step hstep
  cases steps_of_step hstep with
  | request hnew => exact htraced.completed key statusCode response hclaim
  | @handler index now event handler next effect hhandler hadvance =>
      by_cases hkey : key = handler.claimKey deployment
      · cases hadvance.writes with
        | begin hstage =>
            simp only [World.setHandler, World.perform, MemoryIdempotencyStore.get_begin]
              at hclaim
            split at hclaim
            · cases hclaim
            · exact htraced.completed key statusCode response hclaim
        | @complete record race result hstage honce =>
            simp only [World.setHandler, World.perform,
              MemoryIdempotencyStore.get_complete, if_pos hkey] at hclaim
            cases hclaim
            refine ⟨index, handler, result, hhandler, hkey.symm, ?_, rfl⟩
            exact Handler.result_of_stage hstage (by rw [honce]; rfl)
        | release hstage hphase =>
            simp only [World.setHandler, World.perform, MemoryIdempotencyStore.get_fail,
              if_pos hkey] at hclaim
            exact htraced.completed key statusCode response
              (Option.filter_eq_some_iff.mp hclaim).1
        | nothing | save hstage => exact htraced.completed key statusCode response hclaim
        | settle hstage honce hsuccess | reject hstage honce hfailure =>
            exact htraced.completed key statusCode response hclaim
        | failure hstage hphase => exact htraced.completed key statusCode response hclaim
      · simp only [World.setHandler] at hclaim
        rw [World.claim_perform_of_ne now hkey] at hclaim
        exact htraced.completed key statusCode response hclaim
  | list | poll hlisted => exact htraced.completed key statusCode response hclaim

/-- Logs that exist stay. -/
theorem stream_ne_nil_of_step (hstep : step deployment w action = some w')
    (hne : w.store.stream key ≠ []) : w'.store.stream key ≠ [] := by
  obtain ⟨event, hevent⟩ := List.exists_mem_of_ne_nil _ hne
  exact List.ne_nil_of_mem (mem_stream_step hstep hevent)

theorem Handler.not_hasSaved_start (deployment : Deployment) (request : Request) :
    (Handler.start deployment request).hasSaved = false := by
  rw [hasSaved, start]
  cases validatePaymentBody deployment.networks request <;> rfl

theorem Traced.saved_step (htraced : Traced deployment w)
    (hstep : step deployment w action = some w') (index : ℕ) (handler : Handler)
    (hhandler : w'.handlers.get index = some handler) (hsaved : handler.hasSaved = true) :
    w'.store.stream (handler.storeKey deployment) ≠ [] := by
  have hgrows : ∀ index handler, w.handlers.get index = some handler →
      handler.hasSaved = true → w'.store.stream (handler.storeKey deployment) ≠ [] :=
    fun index handler hold hsaved =>
      stream_ne_nil_of_step hstep (htraced.saved index handler hold hsaved)
  cases steps_of_step hstep with
  | request hnew =>
      rcases InsertionMap.get_set_cases hhandler with ⟨-, rfl⟩ | ⟨-, hold⟩
      · rw [Handler.not_hasSaved_start] at hsaved
        cases hsaved
      · exact hgrows index handler hold hsaved
  | handler hmover hadvance =>
      have hfound := hhandler
      simp only [World.setHandler, World.handlers_perform] at hfound
      rcases InsertionMap.get_set_cases hfound with ⟨-, rfl⟩ | ⟨-, hold⟩
      · rw [hadvance.storeKey_eq]
        rcases hadvance.hasSaved hsaved with rfl | hbefore
        · simp only [World.setHandler, World.perform, MemorySettlementStore.stream_save]
          exact (if_pos rfl).trans_ne (by simp)
        · exact hgrows _ _ hmover hbefore
      · exact hgrows index handler hold hsaved
  | list | poll hlisted => exact hgrows index handler hhandler hsaved

/-- A sweep lists unknown records, and those have an owner. -/
theorem Traced.listed_step (htraced : Traced deployment w)
    (hstep : step deployment w action = some w') (sweep : ℕ) (record : Settlement ℕ)
    (hlisted : record ∈ w'.sweeps sweep) :
    w'.OwnerOf deployment record.idempotencyKey := by
  suffices hbefore : w.OwnerOf deployment record.idempotencyKey from hbefore.step hstep
  cases steps_of_step hstep with
  | request hnew => exact htraced.listed sweep record hlisted
  | handler hmover hadvance =>
      simp only [World.setHandler, World.sweeps_perform] at hlisted
      exact htraced.listed sweep record hlisted
  | @list other =>
      by_cases hsweep : sweep = other
      · subst hsweep
        simp only [Function.update_self] at hlisted
        obtain ⟨key, hget, hunknown⟩ := MemorySettlementStore.mem_listUnknown hlisted
        rw [htraced.keyed key record hget]
        exact htraced.owned key record hget (by simp [hunknown])
      · simp only [Function.update_of_ne hsweep] at hlisted
        exact htraced.listed sweep record hlisted
  | @poll other _ _ first rest hfirst =>
      by_cases hsweep : sweep = other
      · subst hsweep
        simp only [Function.update_self] at hlisted
        apply htraced.listed sweep record
        rw [hfirst]
        exact List.mem_cons_of_mem _ hlisted
      · simp only [Function.update_of_ne hsweep] at hlisted
        exact htraced.listed sweep record hlisted

theorem Traced.step (htraced : Traced deployment w)
    (hstep : X402Facilitator.step deployment w action = some w') :
    Traced deployment w' where
  saved := htraced.saved_step hstep
  keyed := (htraced.records_step hstep).keyed
  owned := (htraced.records_step hstep).owned
  responded := (htraced.records_step hstep).responded
  completed := fun _ _ _ hclaim => htraced.completed_step hstep hclaim
  listed := htraced.listed_step hstep

end Step

/-- Every reachable state is traced. -/
theorem traced_of_reaches {deployment : Deployment} {meets : World → Action → Prop}
    {w : World} (hreach : Reaches (step deployment) meets .init w) : Traced deployment w :=
  hreach.preserves (fun _ _ _ htraced _ hstep => htraced.step hstep) (.init deployment)

end X402Facilitator
