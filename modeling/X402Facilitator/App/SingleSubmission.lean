import X402Facilitator.App.Claims

/-!
# One submission for each payment key

A claim that is held keeps every other handler from submitting.  What breaks it
is the timeout: a request that times out before its transaction is broadcast
releases the claim while its `facilitator.settle` is still running.  In the runs
without such a timeout, and in which the requests of one payment key share their
idempotency key, a payment is submitted by one handler only.
-/

namespace X402Facilitator

open X402Facilitator.Execution

/-- `facilitator.settle` is in flight, or has returned success. -/
def OncePhase.submits : OncePhase → Bool
  | settling => true
  | once => once.result.any SettleResult.success

/-- `facilitator.settle` is in flight or successful, or waits for the lock. -/
def OncePhase.maySubmit : OncePhase → Bool
  | awaitingLock => true
  | once => once.submits

def Handler.submits (handler : Handler) : Bool :=
  match handler.stage with
  | .owner _ race => race.once.submits
  | _ => false

/-- While a handler submits, no `begin` takes over its claim, and no other
handler of its payment key submits. -/
def SubmitsOnce (deployment : Deployment) (meets : World → Action → Prop) : Prop :=
  ∀ w, Reaches (step deployment) meets .init w →
    ∀ index handler, w.handlers.get index = some handler → handler.submits = true →
      (beginOutcome
        (w.idempotency.records.get (handler.claimKey deployment))).isOwner = false ∧
      ∀ other rival, w.handlers.get other = some rival → rival.submits = true →
        rival.storeKey deployment = handler.storeKey deployment → other = index

/-- Requests of one payment key have one idempotency key, and a request whose
transaction has not been broadcast times out only when its `settleOnce` can no
longer submit and has not succeeded. -/
def TimesOutAfterBroadcast (deployment : Deployment) (w : World) : Action → Prop
  | .request _ request => ∀ index handler, w.handlers.get index = some handler →
      handler.storeKey deployment = request.storeKey deployment.library →
        handler.claimKey deployment = request.keyFor deployment.library
  | .handler index .timedOut _ => ∀ handler record race,
      w.handlers.get index = some handler → handler.stage = .owner record race →
        race.submitted = none → race.once.maySubmit = false
  | _ => True

def Race.keepsClaim (race : Race) : Bool :=
  match race.phase with
  | .releasing _ => false
  | _ => race.holdsClaim

theorem Race.holdsClaim_of_keepsClaim {race : Race} (hkeeps : race.keepsClaim = true) :
    race.holdsClaim = true := by
  rw [keepsClaim] at hkeeps
  split at hkeeps
  · cases hkeeps
  · exact hkeeps

theorem Race.keepsClaim_congr {race other : Race} (hphase : other.phase = race.phase) :
    other.keepsClaim = race.keepsClaim := by
  simp only [keepsClaim, holdsClaim, hphase]

variable {once : OncePhase} {deployment : Deployment} {handler : Handler} {index : ℕ} {w w' : World}
  {action : Action}

theorem OncePhase.maySubmit_of_submits (hsubmits : once.submits = true) :
    once.maySubmit = true := by
  cases once with
  | awaitingLock => rfl
  | _ => exact hsubmits

theorem OncePhase.maySubmit_of_result {result : SettleResult} (hresult : once.result = some result) :
    once.maySubmit = result.success := by
  cases once with
  | awaitingLock => cases hresult
  | settling => cases hresult
  | threw error => cases hresult
  | _ => cases hresult; rfl

/-- A timeout after the broadcast keeps the claim. -/
theorem Race.keepsClaim_caught_timeout {request : Request} {race next : Race}
    (hsubmitted : race.submitted.isSome = true)
    (hphase : next.phase = race.caught request (timeoutError race.submitted.isSome)) :
    next.keepsClaim = true := by
  have hunknown : (race.failure request (timeoutError race.submitted.isSome)).outcomeUnknown
      = true := by
    rw [hsubmitted]
    rfl
  simp only [keepsClaim, holdsClaim, hphase, caught, hunknown, if_true]

section Race

variable {library : Library} {request : Request} {race next : Race}
variable {event : Event} {effect : Effect}

/-- Nothing that can no longer submit comes to submit. -/
theorem RaceTransition.maySubmit_of_maySubmit
    (hrace : RaceTransition library request race event next effect)
    (hmay : next.once.maySubmit = true) : race.once.maySubmit = true := by
  cases hrace.onceStep with
  | kept honce => rw [honce] at hmay; exact hmay
  | locked hbefore honce => rw [hbefore]; rfl
  | threw hbefore honce => rw [honce] at hmay; cases hmay
  | returned hbefore honce => rw [hbefore]; rfl
  | advanced hbefore hafter =>
      rw [OncePhase.maySubmit_of_result hafter] at hmay
      rw [OncePhase.maySubmit_of_result hbefore]
      exact hmay

/-- A handler that may submit keeps its claim. -/
theorem RaceTransition.keepsClaim
    (hrace : RaceTransition library request race event next effect)
    (hkeeps : race.once.maySubmit = true → race.keepsClaim = true)
    (hguard : event = .timedOut → race.submitted = none → race.once.maySubmit = false)
    (hmay : next.once.maySubmit = true) : next.keepsClaim = true := by
  have hmayBefore := hrace.maySubmit_of_maySubmit hmay
  have hbefore := hkeeps hmayBefore
  cases hrace.phaseStep with
  | kept hkept heffect => exact (Race.keepsClaim_congr hkept).trans hbefore
  | threw hracing hcaught honce => rw [honce] at hmay; cases hmay
  | timedOut hracing hcaught =>
      apply Race.keepsClaim_caught_timeout _ hcaught
      by_contra hnone
      rw [Option.not_isSome_iff_eq_none] at hnone
      exact absurd ((hguard rfl hnone).symm.trans hmayBefore) (by simp)
  | answered hracing hanswered heffect =>
      rw [Race.keepsClaim, hanswered, Race.holdsClaim, hanswered]
  | released hreleasing hrecording =>
      rw [Race.keepsClaim, hreleasing] at hbefore
      cases hbefore
  | failureRecorded hrecording hanswered =>
      rw [Race.keepsClaim, Race.holdsClaim, hrecording] at hbefore
      rw [Race.keepsClaim, Race.holdsClaim, hanswered]
      exact hbefore

end Race

def Stage.KeepsClaim (stage : Stage) : Prop :=
  ∀ record race, stage = .owner record race → race.once.maySubmit = true →
    race.keepsClaim = true

structure Exclusive (deployment : Deployment) (w : World) : Prop where
  held : ClaimsHeld deployment w
  keeps : ∀ index handler, w.handlers.get index = some handler → handler.stage.KeepsClaim
  shared : ∀ index other handler rival, w.handlers.get index = some handler →
    w.handlers.get other = some rival →
    handler.storeKey deployment = rival.storeKey deployment →
      handler.claimKey deployment = rival.claimKey deployment

theorem Exclusive.init (deployment : Deployment) : Exclusive deployment .init where
  held := .init deployment
  keeps := fun index handler hhandler => by simp [World.init] at hhandler
  shared := fun index other handler rival hhandler => by simp [World.init] at hhandler

theorem Transition.keepsClaim {next : Handler} {event : Event} {effect : Effect} {now : ℕ}
    (hhandler : w.handlers.get index = some handler) (hkeeps : handler.stage.KeepsClaim)
    (hmeets : TimesOutAfterBroadcast deployment w (.handler index event now))
    (hadvance : Transition deployment handler (w.view deployment handler) event next
      effect) : next.stage.KeepsClaim := by
  intro record race hstage hmay
  cases hadvance with
  | owned hclaiming houtcome =>
      cases hstage
      rfl
  | raced howner hrace =>
      cases hstage
      apply hrace.keepsClaim (hkeeps _ _ howner) _ hmay
      intro hevent
      subst hevent
      exact hmeets handler _ _ hhandler howner
  | _ => cases hstage

/-- The keys of the handlers stay shared where the requests share them. -/
theorem Exclusive.shared_step (hexclusive : Exclusive deployment w)
    (hmeets : TimesOutAfterBroadcast deployment w action)
    (hstep : X402Facilitator.step deployment w action = some w') (left right : ℕ)
    (handler rival : Handler) (hleft : w'.handlers.get left = some handler)
    (hright : w'.handlers.get right = some rival)
    (hkey : handler.storeKey deployment = rival.storeKey deployment) :
    handler.claimKey deployment = rival.claimKey deployment := by
  rcases exists_before_of_step hstep hleft with ⟨request, rfl, rfl⟩ | hbefore
  · rcases exists_before_of_step hstep hright with ⟨_, haction, rfl⟩ | hbefore'
    · cases haction
      rfl
    · obtain ⟨before', hold', hrequest'⟩ := hbefore'
      rw [Handler.storeKey, Handler.storeKey, hrequest'] at hkey
      rw [Handler.claimKey, Handler.claimKey, hrequest']
      exact (hmeets right before' hold' hkey.symm).symm
  · obtain ⟨before, hold, hrequest⟩ := hbefore
    rw [Handler.storeKey, hrequest] at hkey
    rw [Handler.claimKey, hrequest]
    rcases exists_before_of_step hstep hright with ⟨request, rfl, rfl⟩ | hbefore'
    · exact hmeets left before hold hkey
    · obtain ⟨before', hold', hrequest'⟩ := hbefore'
      rw [Handler.storeKey, hrequest'] at hkey
      rw [Handler.claimKey, hrequest']
      exact hexclusive.shared left right before before' hold hold' hkey

theorem Exclusive.step (hexclusive : Exclusive deployment w)
    (hmeets : TimesOutAfterBroadcast deployment w action)
    (hstep : X402Facilitator.step deployment w action = some w') : Exclusive deployment w' where
  held := hexclusive.held.step hstep
  keeps := by
    refine handlers_of_step (fun handler => handler.stage.KeepsClaim) hstep
      hexclusive.keeps ?_ ?_
    · intro request record race hstage
      exact absurd hstage Handler.start_ne_owner
    · intro index event now handler next effect haction hhandler hkeeps hadvance
      subst haction
      exact hadvance.keepsClaim hhandler hkeeps hmeets
  shared := hexclusive.shared_step hmeets hstep

/-- A handler that submits holds its claim. -/
theorem Exclusive.holdsClaim (hexclusive : Exclusive deployment w)
    (hhandler : w.handlers.get index = some handler) (hsubmits : handler.submits = true) :
    handler.HoldsClaim := by
  rw [Handler.submits] at hsubmits
  split at hsubmits
  · next record race hstage =>
      have hkeeps := hexclusive.keeps index handler hhandler record race hstage
        (OncePhase.maySubmit_of_submits hsubmits)
      exact ⟨record, race, hstage, Race.holdsClaim_of_keepsClaim hkeeps⟩
  · cases hsubmits

/-- In the runs whose timeouts come after the broadcast, a payment is submitted
by one handler only. -/
theorem submitsOnce_timesOutAfterBroadcast (deployment : Deployment) :
    SubmitsOnce deployment (TimesOutAfterBroadcast deployment) := by
  intro w hreach index handler hhandler hsubmits
  have hexclusive : Exclusive deployment w :=
    hreach.preserves (fun _ _ _ h hmeets hstep => h.step hmeets hstep) (.init deployment)
  have hholds := hexclusive.holdsClaim hhandler hsubmits
  constructor
  · apply hexclusive.held.isOwner_begin
    exact hexclusive.held.claimed index handler hhandler hholds
  · intro other rival hrival hsubmits' hkey
    have hclaimKey := hexclusive.shared other index rival handler hrival hhandler hkey
    exact hexclusive.held.unique other index rival handler hrival hhandler
      (hexclusive.holdsClaim hrival hsubmits') hholds hclaimKey

def retryAfterTimeout : List Action :=
  Sample.claim 0 Sample.request ++
    [.handler 0 .timedOut 0, .handler 0 .claimReleased 0, .handler 0 .failureRecorded 0] ++
    Sample.claim 1 Sample.request

/-- Then both handlers have a submission in flight. -/
theorem not_submitsOnce_anyStep : ¬ SubmitsOnce Sample.deployment anyStep := by
  intro honce
  have hboth : (run (step Sample.deployment) .init retryAfterTimeout).map
      (fun w => [0, 1].map fun index => (w.handlers.get index).map fun handler =>
        (handler.storeKey Sample.deployment, handler.submits)) =
      some [some ("order-1", true), some ("order-1", true)] := by
    decide
  obtain ⟨w, hreach, hobserved⟩ := exists_reaches_of_run hboth
  simp only [List.map_cons, List.map_nil, List.cons.injEq, and_true] at hobserved
  obtain ⟨hzero, hone⟩ := hobserved
  obtain ⟨first, hfirst, hpair⟩ := Option.map_eq_some_iff.mp hzero
  obtain ⟨second, hsecond, hpair'⟩ := Option.map_eq_some_iff.mp hone
  obtain ⟨hkey, hsubmits⟩ := Prod.mk.inj hpair
  obtain ⟨hkey', hsubmits'⟩ := Prod.mk.inj hpair'
  have hsame := (honce w hreach 0 first hfirst hsubmits).2 1 second hsecond hsubmits'
    (hkey'.trans hkey.symm)
  cases hsame

end X402Facilitator
