import X402Facilitator.App.Settle

/-!
# The settlement system

Any number of handlers and reconciliation sweeps over one settlement store and
one idempotency store.  A step is one await of one handler, the listing of a
sweep, or the poll of its next record.  `Steps` is the inversion of the step
function, and `Transition` that of a handler's own part of it; the invariants
of the system are proved by cases on them.
-/

namespace X402Facilitator

structure World where
  store : MemorySettlementStore ℕ
  idempotency : MemoryIdempotencyStore
  handlers : InsertionMap ℕ Handler
  sweeps : ℕ → List (Settlement ℕ)

def World.init : World where
  store := .empty
  idempotency := .empty
  handlers := .empty
  sweeps := fun _ => []

inductive Action where
  | request (index : ℕ) (request : Request)
  | handler (index : ℕ) (event : Event) (now : ℕ)
  | list (sweep : ℕ)
  | poll (sweep : ℕ) (answer : RpcAnswer) (now : ℕ)

/-- `settleOnce` runs under the lock, unless the lock has expired. -/
def Race.holdsLock (race : Race) : Bool :=
  match race.once with
  | .awaitingLock | .returned _ | .threw _ => false
  | _ => !race.lockLost

def Handler.holdsLock (library : Library) (handler : Handler) (key : String) : Bool :=
  match handler.stage with
  | .owner _ race => race.holdsLock && handler.request.lockKeyFor library == key
  | _ => false

namespace World

variable (deployment : Deployment) (w : World)

def view (handler : Handler) : View where
  record := w.store.get (handler.storeKey deployment)
  outcome := beginOutcome (w.idempotency.records.get (handler.claimKey deployment))

def lockFree (key : String) : Bool :=
  w.handlers.entries.all fun entry => !entry.2.holdsLock deployment.library key

/-- A lock is acquired only when no handler holds it. -/
def enabled (handler : Handler) : Event → Bool
  | .lockAcquired => w.lockFree deployment (handler.request.lockKeyFor deployment.library)
  | _ => true

def perform (handler : Handler) (now : ℕ) : Effect → World
  | .nothing => w
  | .save => { w with store := (w.store.save now (handler.savedRecord deployment)).1 }
  | .begin =>
      { w with idempotency := (w.idempotency.begin (handler.claimKey deployment)).2 }
  | .settle details =>
      { w with store := (w.store.settleAndEnqueue now (handler.storeKey deployment) details
          none).1 }
  | .update state details =>
      { w with
        store := (w.store.updateState now (handler.storeKey deployment) state details).1 }
  | .complete response =>
      { w with
        idempotency := w.idempotency.complete (handler.claimKey deployment) 200 response }
  | .release =>
      { w with idempotency := w.idempotency.fail (handler.claimKey deployment) }

def setHandler (index : ℕ) (handler : Handler) : World :=
  { w with handlers := w.handlers.set index handler }

end World

def step (deployment : Deployment) (w : World) : Action → Option World
  | .request index request =>
      match w.handlers.get index with
      | none => some (w.setHandler index (.start deployment request))
      | some _ => none
  | .handler index event now =>
      match w.handlers.get index with
      | none => none
      | some handler =>
          if w.enabled deployment handler event then
            (handler.advance deployment (w.view deployment handler) event).map
              fun (next, effect) =>
                (w.perform deployment handler now effect).setHandler index next
          else none
  | .list sweep =>
      some { w with sweeps := Function.update w.sweeps sweep w.store.listUnknown }
  | .poll sweep answer now =>
      match w.sweeps sweep with
      | [] => none
      | record :: records =>
          some { w with
            store := applyResolution w.store now record
              (resolve deployment.reconcile (fun _ _ => answer) record)
            sweeps := Function.update w.sweeps sweep records }

inductive RaceTransition (library : Library) (request : Request) (race : Race) :
    Event → Race → Effect → Prop
  | locked (honce : race.once = .awaitingLock) :
      RaceTransition library request race .lockAcquired
        { race with once := .settling } .nothing
  | lockTimedOut (honce : race.once = .awaitingLock) :
      RaceTransition library request race .lockTimedOut
        (race.onceThrows request
          (lockAcquireTimeoutError (request.lockKeyFor library))) .nothing
  | lockLost : RaceTransition library request race .lockLost
      { race with lockLost := true } .nothing
  | broadcast {txHash : String} (honce : race.once = .settling) :
      RaceTransition library request race (.broadcast txHash)
        { race with submitted := some txHash } .nothing
  | returned {result : SettleResult} (honce : race.once = .settling) :
      RaceTransition library request race (.settleReturned result)
        { race with once := .metering result } .nothing
  | threw {error : ThrownError} (honce : race.once = .settling) :
      RaceTransition library request race (.settleThrew error)
        (race.onceThrows request error) .nothing
  | metered {result : SettleResult} (honce : race.once = .metering result) :
      RaceTransition library request race .settleRecorded
        { race with once := .storing result } .nothing
  | stored {result : SettleResult} (honce : race.once = .storing result)
      (hsuccess : result.success = true) :
      RaceTransition library request race .outcomeStored
        { race with once := .cataloging result } (.settle result.settledDetails)
  | rejected {result : SettleResult} (honce : race.once = .storing result)
      (hfailure : result.success = false) :
      RaceTransition library request race .outcomeStored
        { race with once := .completing result } (.update .failed result.failedDetails)
  | cataloged {result : SettleResult} (honce : race.once = .cataloging result) :
      RaceTransition library request race .cataloged
        { race with once := .completing result } .nothing
  | completed {result : SettleResult} {recorded : Bool}
      (honce : race.once = .completing result) :
      RaceTransition library request race (.outcomeCompleted recorded)
        (race.onceReturns result) (if recorded then .complete result.body else .nothing)
  | timedOut (hphase : race.phase = .racing) :
      RaceTransition library request race .timedOut
        { race with phase := race.caught request (timeoutError race.submitted.isSome) }
        .nothing
  | released {failure : Failure} (hphase : race.phase = .releasing failure) :
      RaceTransition library request race .claimReleased
        { race with phase := .recordingFailure failure } .release
  | failureRecorded {failure : Failure} (hphase : race.phase = .recordingFailure failure) :
      RaceTransition library request race .failureRecorded
        { race with phase := .answered (.failure failure request.network) }
        (.update failure.targetState failure.details)

theorem Race.transition_of_advance {library : Library} {request : Request}
    {race next : Race} {event : Event} {effect : Effect}
    (hadvance : race.advance request library event = some (next, effect)) :
    RaceTransition library request race event next effect := by
  unfold advance at hadvance
  split at hadvance
  · next honce => cases hadvance; exact .locked honce
  · next honce => cases hadvance; exact .lockTimedOut honce
  · next honce => cases hadvance; exact .broadcast honce
  · next honce => cases hadvance; exact .returned honce
  · next honce => cases hadvance; exact .threw honce
  · next honce => cases hadvance; exact .metered honce
  · next honce =>
      split at hadvance
      · next hsuccess => cases hadvance; exact .stored honce hsuccess
      · next hfailure =>
          cases hadvance
          exact .rejected honce (Bool.eq_false_iff.mpr hfailure)
  · next honce => cases hadvance; exact .cataloged honce
  · next honce => cases hadvance; exact .completed honce
  · cases hadvance; exact .lockLost
  · cases hadvance; exact .lockLost
  · cases hadvance; exact .lockLost
  · cases hadvance; exact .lockLost
  · cases hadvance; exact .lockLost
  · split at hadvance
    · next hphase => cases hadvance; exact .timedOut hphase
    · cases hadvance
  · split at hadvance
    · next hphase => cases hadvance; exact .released hphase
    · cases hadvance
  · split at hadvance
    · next hphase => cases hadvance; exact .failureRecorded hphase
    · cases hadvance
  · cases hadvance

inductive Transition (deployment : Deployment) (handler : Handler) (view : View) :
    Event → Handler → Effect → Prop
  | rateAllowed (hstage : handler.stage = .checkingRate) :
      Transition deployment handler view (.rateChecked true)
        (handler.moveTo .readingRecord) .nothing
  | rateRefused (hstage : handler.stage = .checkingRate) :
      Transition deployment handler view (.rateChecked false)
        (handler.moveTo (.declined .rateLimited)) .nothing
  | answered {reply : Reply} (hstage : handler.stage = .readingRecord)
      (hreply : view.record.bind
        (replyFromRecord deployment.library handler.request) = some reply) :
      Transition deployment handler view .recordRead
        (handler.moveTo (.declined reply)) .nothing
  | missed (hstage : handler.stage = .readingRecord)
      (hnone : view.record.bind
        (replyFromRecord deployment.library handler.request) = none) :
      Transition deployment handler view .recordRead
        (handler.moveTo (.savingRecord view.record)) .nothing
  | saved {record : Option (Settlement ℕ)} (hstage : handler.stage = .savingRecord record) :
      Transition deployment handler view .recordSaved
        (handler.moveTo (.claiming record)) .save
  | owned {record : Option (Settlement ℕ)} (hstage : handler.stage = .claiming record)
      (houtcome : view.outcome = .owner) :
      Transition deployment handler view .claimBegun
        (handler.moveTo (.owner record (.start deployment.distributedLock))) .begin
  | replayed {record : Option (Settlement ℕ)} {statusCode : ℕ} {response : Json}
      (hstage : handler.stage = .claiming record)
      (houtcome : view.outcome = .replayed statusCode response) :
      Transition deployment handler view .claimBegun
        (handler.moveTo (.declined (.replay statusCode response))) .nothing
  | conflicted {record : Option (Settlement ℕ)}
      (hstage : handler.stage = .claiming record) (houtcome : view.outcome = .conflict) :
      Transition deployment handler view .claimBegun
        (handler.moveTo (.declined .conflict)) .nothing
  | raced {record : Option (Settlement ℕ)} {race next : Race} {event : Event}
      {effect : Effect} (hstage : handler.stage = .owner record race)
      (hrace : RaceTransition deployment.library handler.request race event next effect) :
      Transition deployment handler view event (handler.moveTo (.owner record next)) effect

theorem Handler.transition_of_advance {deployment : Deployment} {handler next : Handler}
    {view : View} {event : Event} {effect : Effect}
    (hadvance : handler.advance deployment view event = some (next, effect)) :
    Transition deployment handler view event next effect := by
  unfold advance at hadvance
  split at hadvance
  · next hstage => cases hadvance; exact .rateAllowed hstage
  · next hstage => cases hadvance; exact .rateRefused hstage
  · next hstage =>
      split at hadvance
      · next hreply => cases hadvance; exact .answered hstage hreply
      · next hnone => cases hadvance; exact .missed hstage hnone
  · next hstage => cases hadvance; exact .saved hstage
  · next hstage =>
      split at hadvance
      · next houtcome => cases hadvance; exact .owned hstage houtcome
      · next houtcome => cases hadvance; exact .replayed hstage houtcome
      · next houtcome => cases hadvance; exact .conflicted hstage houtcome
  · next hstage =>
      obtain ⟨⟨race, effect⟩, hrace, hnext⟩ := Option.map_eq_some_iff.mp hadvance
      cases hnext
      exact .raced hstage (Race.transition_of_advance hrace)
  · cases hadvance

inductive Steps (deployment : Deployment) (w : World) : Action → World → Prop
  | request {index : ℕ} {request : Request} (hnew : w.handlers.get index = none) :
      Steps deployment w (.request index request)
        (w.setHandler index (.start deployment request))
  | handler {index now : ℕ} {event : Event} {handler next : Handler} {effect : Effect}
      (hhandler : w.handlers.get index = some handler)
      (hadvance : Transition deployment handler (w.view deployment handler) event next
        effect) :
      Steps deployment w (.handler index event now)
        ((w.perform deployment handler now effect).setHandler index next)
  | list {sweep : ℕ} :
      Steps deployment w (.list sweep)
        { w with sweeps := Function.update w.sweeps sweep w.store.listUnknown }
  | poll {sweep now : ℕ} {answer : RpcAnswer} {record : Settlement ℕ}
      {records : List (Settlement ℕ)} (hlisted : w.sweeps sweep = record :: records) :
      Steps deployment w (.poll sweep answer now)
        { w with
          store := applyResolution w.store now record
            (resolve deployment.reconcile (fun _ _ => answer) record)
          sweeps := Function.update w.sweeps sweep records }

variable {action : Action} {found : Handler}

theorem steps_of_step {deployment : Deployment} {w w' : World}
    (hstep : step deployment w action = some w') : Steps deployment w action w' := by
  cases action with
  | request index request =>
      simp only [step] at hstep
      split at hstep
      · next hnew => cases hstep; exact .request hnew
      · cases hstep
  | handler index event now =>
      simp only [step] at hstep
      split at hstep
      · cases hstep
      · next handler hhandler =>
          split at hstep
          · obtain ⟨⟨next, effect⟩, hadvance, hnext⟩ := Option.map_eq_some_iff.mp hstep
            cases hnext
            exact .handler hhandler (Handler.transition_of_advance hadvance)
          · cases hstep
  | list sweep =>
      cases hstep
      exact .list
  | poll sweep answer now =>
      simp only [step] at hstep
      split at hstep
      · cases hstep
      · next record records hlisted => cases hstep; exact .poll hlisted

namespace Race

variable (request : Request) (race : Race) (error : ThrownError) (result : SettleResult)

@[simp]
theorem once_onceThrows : (race.onceThrows request error).once = .threw error := by
  rw [onceThrows]
  split <;> rfl

/-- Only a request that still waits for `settleOnce` enters its catch branch. -/
theorem phase_onceThrows : (race.onceThrows request error).phase =
    match race.phase with
    | .racing => race.caught request error
    | phase => phase := by
  rw [onceThrows]
  split <;> simp_all

/-- The catch branch releases the claim or goes on to record the failure. -/
theorem caught_cases : (∃ failure, race.caught request error = .releasing failure) ∨
    ∃ failure, race.caught request error = .recordingFailure failure := by
  rw [caught]
  split
  · exact Or.inr ⟨_, rfl⟩
  · exact Or.inl ⟨_, rfl⟩

@[simp]
theorem once_onceReturns : (race.onceReturns result).once = .returned result := by
  rw [onceReturns]
  split <;> rfl

theorem phase_onceReturns : (race.onceReturns result).phase =
    match race.phase with
    | .racing => .answered (.outcome result)
    | phase => phase := by
  rw [onceReturns]
  split <;> simp_all

end Race

/-- What happens to the request: nothing, the catch branch, the answer, or a
step on the way from the catch branch to the answer. -/
inductive PhaseStep (request : Request) (race next : Race) : Event → Effect → Prop
  | kept {event : Event} {effect : Effect} (hphase : next.phase = race.phase)
      (heffect : effect ≠ .release) : PhaseStep request race next event effect
  | threw {event : Event} {error : ThrownError} (hracing : race.phase = .racing)
      (hphase : next.phase = race.caught request error) (honce : next.once = .threw error) :
      PhaseStep request race next event .nothing
  | timedOut (hracing : race.phase = .racing)
      (hphase : next.phase =
        race.caught request (timeoutError race.submitted.isSome)) :
      PhaseStep request race next .timedOut .nothing
  | answered {event : Event} {effect : Effect} {result : SettleResult}
      (hracing : race.phase = .racing) (hphase : next.phase = .answered (.outcome result))
      (heffect : effect ≠ .release) : PhaseStep request race next event effect
  | released {failure : Failure} (hreleasing : race.phase = .releasing failure)
      (hphase : next.phase = .recordingFailure failure) :
      PhaseStep request race next .claimReleased .release
  | failureRecorded {failure : Failure} (hrecording : race.phase = .recordingFailure failure)
      (hphase : next.phase = .answered (.failure failure request.network)) :
      PhaseStep request race next .failureRecorded
        (.update failure.targetState failure.details)

inductive OnceStep (race next : Race) : Event → Prop
  | kept {event : Event} (honce : next.once = race.once) : OnceStep race next event
  | locked {event : Event} (hbefore : race.once = .awaitingLock)
      (honce : next.once = .settling) : OnceStep race next event
  | threw {event : Event} {error : ThrownError} (hbefore : race.once.result = none)
      (honce : next.once = .threw error) : OnceStep race next event
  | returned {result : SettleResult} (hbefore : race.once = .settling)
      (honce : next.once = .metering result) :
      OnceStep race next (.settleReturned result)
  | advanced {event : Event} {result : SettleResult}
      (hbefore : race.once.result = some result) (hafter : next.once.result = some result) :
      OnceStep race next event

section RaceSteps

variable {library : Library} {request : Request} {race next : Race}
variable {event : Event} {effect : Effect}

theorem PhaseStep.of_onceThrows (error : ThrownError) :
    PhaseStep request race (race.onceThrows request error) event .nothing := by
  have hphase := race.phase_onceThrows request error
  cases hbefore : race.phase with
  | racing =>
      rw [hbefore] at hphase
      exact .threw hbefore hphase (race.once_onceThrows request error)
  | releasing failure => exact .kept (by rw [hphase, hbefore]) (by simp)
  | recordingFailure failure => exact .kept (by rw [hphase, hbefore]) (by simp)
  | answered reply => exact .kept (by rw [hphase, hbefore]) (by simp)

theorem PhaseStep.of_onceReturns (result : SettleResult) (heffect : effect ≠ .release) :
    PhaseStep request race (race.onceReturns result) event effect := by
  have hphase := race.phase_onceReturns result
  cases hbefore : race.phase with
  | racing =>
      rw [hbefore] at hphase
      exact .answered hbefore hphase heffect
  | releasing failure => exact .kept (by rw [hphase, hbefore]) heffect
  | recordingFailure failure => exact .kept (by rw [hphase, hbefore]) heffect
  | answered reply => exact .kept (by rw [hphase, hbefore]) heffect

theorem RaceTransition.phaseStep
    (hrace : RaceTransition library request race event next effect) :
    PhaseStep request race next event effect := by
  cases hrace with
  | locked honce => exact .kept rfl (by simp)
  | lockTimedOut honce => exact .of_onceThrows _
  | lockLost | broadcast honce | returned honce => exact .kept rfl (by simp)
  | threw honce => exact .of_onceThrows _
  | metered honce => exact .kept rfl (by simp)
  | stored honce hsuccess => exact .kept rfl (by simp)
  | rejected honce hfailure => exact .kept rfl (by simp)
  | cataloged honce => exact .kept rfl (by simp)
  | completed honce => exact .of_onceReturns _ (by split <;> simp)
  | timedOut hracing => exact .timedOut hracing rfl
  | released hreleasing => exact .released hreleasing rfl
  | failureRecorded hrecording => exact .failureRecorded hrecording rfl

theorem RaceTransition.onceStep
    (hrace : RaceTransition library request race event next effect) :
    OnceStep race next event := by
  cases hrace with
  | locked honce => exact .locked honce rfl
  | lockTimedOut honce => exact .threw (by rw [honce]; rfl) (race.once_onceThrows _ _)
  | lockLost => exact .kept rfl
  | broadcast honce => exact .kept rfl
  | returned honce => exact .returned honce rfl
  | threw honce => exact .threw (by rw [honce]; rfl) (race.once_onceThrows _ _)
  | metered honce => exact .advanced (by rw [honce]; rfl) rfl
  | stored honce hsuccess => exact .advanced (by rw [honce]; rfl) rfl
  | rejected honce hfailure => exact .advanced (by rw [honce]; rfl) rfl
  | cataloged honce => exact .advanced (by rw [honce]; rfl) rfl
  | completed honce =>
      exact .advanced (by rw [honce]; rfl) (by rw [Race.once_onceReturns]; rfl)
  | timedOut hracing => exact .kept rfl
  | released hreleasing => exact .kept rfl
  | failureRecorded hrecording => exact .kept rfl

end RaceSteps

section Frame

variable {deployment : Deployment} {w : World} {handler next : Handler} {view : View}
variable {event : Event} {effect : Effect}

/-- A handler keeps its request, and so its keys. -/
theorem Transition.request_eq
    (hadvance : Transition deployment handler view event next effect) :
    next.request = handler.request := by
  cases hadvance <;> rfl

/-- A handler that owns its claim moves within its race. -/
theorem Transition.race_of_owner {record : Option (Settlement ℕ)} {race : Race}
    (hadvance : Transition deployment handler view event next effect)
    (hstage : handler.stage = .owner record race) :
    ∃ after, RaceTransition deployment.library handler.request race event after effect ∧
      next = handler.moveTo (.owner record after) := by
  cases hadvance with
  | raced howner hrace =>
      rw [hstage] at howner
      cases howner
      exact ⟨_, hrace, rfl⟩
  | rateAllowed hother | rateRefused hother | answered hother hreply | missed hother hnone
  | saved hother | owned hother houtcome | replayed hother houtcome
  | conflicted hother houtcome => rw [hstage] at hother; cases hother

theorem Transition.storeKey_eq
    (hadvance : Transition deployment handler view event next effect) :
    next.storeKey deployment = handler.storeKey deployment :=
  congrArg (Request.storeKey deployment.library) hadvance.request_eq

theorem Transition.claimKey_eq
    (hadvance : Transition deployment handler view event next effect) :
    next.claimKey deployment = handler.claimKey deployment :=
  congrArg (Request.keyFor deployment.library) hadvance.request_eq

namespace World

@[simp]
theorem handlers_perform (now : ℕ) :
    (w.perform deployment handler now effect).handlers = w.handlers := by
  cases effect <;> rfl

@[simp]
theorem sweeps_perform (now : ℕ) :
    (w.perform deployment handler now effect).sweeps = w.sweeps := by
  cases effect <;> rfl

variable {key : String}

/-- A handler writes the log of its own key only. -/
theorem stream_perform_of_ne (now : ℕ) (hkey : key ≠ handler.storeKey deployment) :
    (w.perform deployment handler now effect).store.stream key = w.store.stream key := by
  cases effect with
  | save => exact (MemorySettlementStore.stream_save _ _ _ _).trans (if_neg hkey)
  | settle details | update state details =>
      exact (MemorySettlementStore.stream_updateState _ _ _ _ _ _).trans
        (if_neg fun h => hkey h.1)
  | nothing => rfl
  | begin => rfl
  | complete response => rfl
  | release => rfl

/-- Handlers only append to logs. -/
theorem mem_stream_perform (now : ℕ) {logged : SettlementEvent ℕ}
    (hlogged : logged ∈ w.store.stream key) :
    logged ∈ (w.perform deployment handler now effect).store.stream key := by
  cases effect with
  | save => exact MemorySettlementStore.mem_stream_save hlogged _ _
  | settle details => exact MemorySettlementStore.mem_stream_updateState hlogged _ _ _ _
  | update state details =>
      exact MemorySettlementStore.mem_stream_updateState hlogged _ _ _ _
  | nothing | begin | complete response | release => exact hlogged

/-- A handler changes the claim of its own key only. -/
theorem claim_perform_of_ne (now : ℕ) (hkey : key ≠ handler.claimKey deployment) :
    (w.perform deployment handler now effect).idempotency.records.get key =
      w.idempotency.records.get key := by
  cases effect with
  | begin =>
      exact (MemoryIdempotencyStore.get_begin _ _ _).trans (if_neg fun h => hkey h.1)
  | complete response =>
      exact (MemoryIdempotencyStore.get_complete _ _ _ _ _).trans (if_neg hkey)
  | release => exact (MemoryIdempotencyStore.get_fail _ _ _).trans (if_neg hkey)
  | nothing => rfl
  | save => rfl
  | settle details => rfl
  | update state details => rfl

end World

end Frame

/-- A step only appends to logs. -/
theorem mem_stream_step {deployment : Deployment} {w w' : World}
    (hstep : step deployment w action = some w') {key : String} {logged : SettlementEvent ℕ}
    (hlogged : logged ∈ w.store.stream key) : logged ∈ w'.store.stream key := by
  cases steps_of_step hstep with
  | request hnew => exact hlogged
  | handler hhandler hadvance => exact World.mem_stream_perform _ hlogged
  | list => exact hlogged
  | poll hlisted =>
      cases hresolve : resolve deployment.reconcile _ _ with
      | none => exact hlogged
      | some resolution =>
          rw [applyResolution_some]
          exact MemorySettlementStore.mem_stream_updateState hlogged _ _ _ _

/-- Where a handler of the next state comes from: it is new, it has moved, or it
was there before. -/
theorem handler_cases_of_step {deployment : Deployment} {w w' : World} {index : ℕ}
    (hstep : step deployment w action = some w') (hfound : w'.handlers.get index = some found) :
    (∃ request, action = .request index request ∧ found = .start deployment request) ∨
      (∃ event now handler effect, action = .handler index event now ∧
        w.handlers.get index = some handler ∧
        Transition deployment handler (w.view deployment handler) event found effect) ∨
      w.handlers.get index = some found := by
  cases steps_of_step hstep with
  | request hnew =>
      rcases InsertionMap.get_set_cases hfound with ⟨rfl, rfl⟩ | ⟨-, hold⟩
      · exact Or.inl ⟨_, rfl, rfl⟩
      · exact Or.inr (Or.inr hold)
  | handler hhandler hadvance =>
      simp only [World.setHandler, World.handlers_perform] at hfound
      rcases InsertionMap.get_set_cases hfound with ⟨rfl, rfl⟩ | ⟨-, hold⟩
      · exact Or.inr (Or.inl ⟨_, _, _, _, rfl, hhandler, hadvance⟩)
      · exact Or.inr (Or.inr hold)
  | list => exact Or.inr (Or.inr hfound)
  | poll hlisted => exact Or.inr (Or.inr hfound)

/-- A handler that is not new has the request it had before. -/
theorem exists_before_of_step {deployment : Deployment} {w w' : World} {index : ℕ}
    (hstep : step deployment w action = some w') (hfound : w'.handlers.get index = some found) :
    (∃ request, action = .request index request ∧ found = .start deployment request) ∨
      ∃ before, w.handlers.get index = some before ∧ found.request = before.request := by
  rcases handler_cases_of_step hstep hfound with hnew | hmoved | hold
  · exact Or.inl hnew
  · obtain ⟨event, now, handler, effect, -, hhandler, hadvance⟩ := hmoved
    exact Or.inr ⟨handler, hhandler, hadvance.request_eq⟩
  · exact Or.inr ⟨found, hold, rfl⟩

/-- Handlers stay, with their requests. -/
theorem exists_after_of_step {deployment : Deployment} {w w' : World} {index : ℕ}
    {handler : Handler} (hstep : step deployment w action = some w')
    (hhandler : w.handlers.get index = some handler) :
    ∃ after, w'.handlers.get index = some after ∧ after.request = handler.request := by
  cases steps_of_step hstep with
  | @request other request hnew =>
      by_cases hindex : index = other
      · subst hindex
        rw [hnew] at hhandler
        cases hhandler
      · exact ⟨handler, (InsertionMap.get_set_of_ne _ _ hindex).trans hhandler, rfl⟩
  | @handler other _ _ mover next effect hmover hadvance =>
      simp only [World.setHandler, World.handlers_perform]
      by_cases hindex : index = other
      · subst hindex
        rw [hmover] at hhandler
        cases hhandler
        exact ⟨next, InsertionMap.get_set_self _ _ _, hadvance.request_eq⟩
      · exact ⟨handler, (InsertionMap.get_set_of_ne _ _ hindex).trans hhandler, rfl⟩
  | list => exact ⟨handler, hhandler, rfl⟩
  | poll hlisted => exact ⟨handler, hhandler, rfl⟩

/-- What a new handler has, and every move of a handler keeps, all handlers
have. -/
theorem handlers_of_step {deployment : Deployment} {w w' : World} (holds : Handler → Prop)
    (hstep : step deployment w action = some w')
    (hbefore : ∀ index handler, w.handlers.get index = some handler → holds handler)
    (hstart : ∀ request, holds (.start deployment request))
    (hmove : ∀ index event now handler next effect, action = .handler index event now →
      w.handlers.get index = some handler → holds handler →
      Transition deployment handler (w.view deployment handler) event next effect →
        holds next) : ∀ index handler, w'.handlers.get index = some handler → holds handler := by
  intro index found hfound
  rcases handler_cases_of_step hstep hfound with hnew | hmoved | hold
  · obtain ⟨request, -, rfl⟩ := hnew
    exact hstart request
  · obtain ⟨event, now, handler, effect, haction, hhandler, hadvance⟩ := hmoved
    exact hmove index event now handler found effect haction hhandler
      (hbefore index handler hhandler) hadvance
  · exact hbefore index found hold

/-- A new handler is not in the race. -/
theorem Handler.start_ne_owner {deployment : Deployment} {request : Request}
    {record : Option (Settlement ℕ)} {race : Race} :
    (Handler.start deployment request).stage ≠ .owner record race := by
  intro hstage
  rw [Handler.start] at hstage
  cases hvalid : validatePaymentBody deployment.networks request <;>
    rw [hvalid] at hstage <;> cases hstage

section Owner

variable {deployment : Deployment} {w w' : World} {index now : ℕ} {handler : Handler}
variable {record : Option (Settlement ℕ)} {race next : Race} {event : Event}
variable {effect : Effect}

theorem Handler.advance_owner {view : View} (hstage : handler.stage = .owner record race) :
    handler.advance deployment view event =
      (race.advance handler.request deployment.library event).map fun (race, effect) =>
        (handler.moveTo (.owner record race), effect) := by
  unfold advance
  split <;> simp_all

/-- An await of the race is a step of the system, unless it waits for the lock. -/
theorem step_of_advance (hhandler : w.handlers.get index = some handler)
    (hstage : handler.stage = .owner record race) (hlock : event ≠ .lockAcquired)
    (hadvance : race.advance handler.request deployment.library event =
      some (next, effect)) :
    step deployment w (.handler index event now) =
      some ((w.perform deployment handler now effect).setHandler index
        (handler.moveTo (.owner record next))) := by
  have henabled : w.enabled deployment handler event = true := by
    cases event with
    | lockAcquired => exact absurd rfl hlock
    | _ => rfl
  simp only [step, hhandler, henabled, if_true, Handler.advance_owner hstage, hadvance,
    Option.map_some]

/-- The step of a handler that owns its claim is an await of its race. -/
theorem race_of_step (hhandler : w.handlers.get index = some handler)
    (hstage : handler.stage = .owner record race)
    (hstep : step deployment w (.handler index event now) = some w') :
    ∃ next effect, RaceTransition deployment.library handler.request race event next effect ∧
      w' = (w.perform deployment handler now effect).setHandler index
        (handler.moveTo (.owner record next)) := by
  cases steps_of_step hstep with
  | handler hfound hadvance =>
      rw [hhandler] at hfound
      cases hfound
      obtain ⟨after, hrace, rfl⟩ := hadvance.race_of_owner hstage
      exact ⟨after, _, hrace, rfl⟩

end Owner

namespace Sample

/-- An open deployment for one network.  Its digest is the text itself. -/
def deployment : Deployment where
  library := ⟨id, id, fun _ => none⟩
  networks := ["stellar:testnet"]
  distributedLock := false
  reconcile := ⟨fun _ => none⟩

/-- A payment that names its transaction, or does not. -/
def body (payTo : String) (transaction : Option String) : Json :=
  .obj [("paymentPayload", .obj ((transaction.map fun text =>
      ("transaction", Json.str text)).toList)),
    ("paymentRequirements", .obj [("scheme", .str "exact"),
      ("network", .str "stellar:testnet"), ("payTo", .str payTo)])]

def request : Request := ⟨.unauthenticated, some "order-1", body "G1" none⟩

def settled : SettleResult :=
  ⟨.obj [("success", .bool true), ("transaction", .str "ab12")], rfl⟩

/-- A handler up to the start of its `facilitator.settle`. -/
def claim (index : ℕ) (request : Request) : List Action :=
  [.request index request, .handler index (.rateChecked true) 0,
    .handler index .recordRead 0, .handler index .recordSaved 0,
    .handler index .claimBegun 0]

def settle (index : ℕ) (result : SettleResult) : List Action :=
  [.handler index (.settleReturned result) 0, .handler index .settleRecorded 0,
    .handler index .outcomeStored 0]

def alice : Principal := .apiKey "ALICE"

def bob : Principal := .apiKey "BOB"

def aliceRequest : Request := ⟨alice, some "order-1", body "G1" none⟩

def bobRequest : Request := ⟨bob, some "order-1", body "G2" none⟩

def aliceSettles : List Action :=
  claim 0 aliceRequest ++ settle 0 settled ++ [.handler 0 .cataloged 0]

def bobRequests : List Action :=
  [.request 1 bobRequest, .handler 1 (.rateChecked true) 0, .handler 1 .recordRead 0,
    .handler 1 .recordSaved 0]

end Sample

end X402Facilitator
