import X402Facilitator.App.System

/-!
# Claims and their holders

The handler that `begin` makes the owner of a claim holds it until its catch
branch releases it.  In every reachable state the claim of a holder is in the
idempotency store, no two handlers hold one claim, and therefore no `begin`
succeeds on a claim that is held.  Nothing is assumed about the runs.
-/

namespace X402Facilitator

open X402Facilitator.Execution

/-- The claim has not been released, and will only be released on the way
through the catch branch. -/
def Race.holdsClaim (race : Race) : Bool :=
  match race.phase with
  | .racing | .releasing _ => true
  | .recordingFailure failure => failure.outcomeUnknown
  | .answered (.failure failure _) => failure.outcomeUnknown
  | .answered _ => true

/-- The handler owns the claim of its key and has not released it. -/
def Handler.HoldsClaim (handler : Handler) : Prop :=
  ∃ record race, handler.stage = .owner record race ∧ race.holdsClaim = true

def World.Claimed (w : World) (key : String) : Prop :=
  ∃ claim, w.idempotency.records.get key = some claim

def Stage.ReleasesKnown (stage : Stage) : Prop :=
  ∀ record race failure, stage = .owner record race → race.phase = .releasing failure →
    failure.outcomeUnknown = false

structure ClaimsHeld (deployment : Deployment) (w : World) : Prop where
  claimed : ∀ index handler, w.handlers.get index = some handler → handler.HoldsClaim →
    w.Claimed (handler.claimKey deployment)
  unique : ∀ index other handler rival, w.handlers.get index = some handler →
    w.handlers.get other = some rival → handler.HoldsClaim → rival.HoldsClaim →
    handler.claimKey deployment = rival.claimKey deployment → index = other
  releasesKnown : ∀ index handler, w.handlers.get index = some handler →
    handler.stage.ReleasesKnown
  truthy : ∀ key statusCode response,
    w.idempotency.records.get key = some (.completed statusCode response) →
      response.truthy = true

theorem Race.outcomeUnknown_of_caught {request : Request} {race : Race}
    {error : ThrownError} {failure : Failure}
    (hcaught : race.caught request error = .releasing failure) :
    failure.outcomeUnknown = false := by
  rw [caught] at hcaught
  split at hcaught
  · cases hcaught
  · next hknown =>
      cases hcaught
      exact Bool.eq_false_iff.mpr hknown

/-- The catch branch starts with the claim in hand. -/
theorem Race.holdsClaim_of_racing {race : Race} (hphase : race.phase = .racing) :
    race.holdsClaim = true := by
  rw [holdsClaim, hphase]

section Phases

variable {library : Library} {request : Request} {race next : Race}
variable {event : Event} {effect : Effect}

theorem RaceTransition.releasesKnown {failure : Failure}
    (hrace : RaceTransition library request race event next effect)
    (hknown : ∀ failure, race.phase = .releasing failure →
      failure.outcomeUnknown = false)
    (hphase : next.phase = .releasing failure) : failure.outcomeUnknown = false := by
  cases hrace.phaseStep with
  | kept hkept heffect =>
      rw [hkept] at hphase
      exact hknown failure hphase
  | threw hracing hcaught honce | timedOut hracing hcaught =>
      rw [hcaught] at hphase
      exact Race.outcomeUnknown_of_caught hphase
  | answered hracing hanswered heffect => rw [hanswered] at hphase; cases hphase
  | released hreleasing hrecording => rw [hrecording] at hphase; cases hphase
  | failureRecorded hrecording hanswered => rw [hanswered] at hphase; cases hphase

/-- Within the race no claim is taken, and one that is released was held. -/
theorem RaceTransition.holdsClaim
    (hrace : RaceTransition library request race event next effect)
    (hknown : ∀ failure, race.phase = .releasing failure →
      failure.outcomeUnknown = false)
    (hholds : next.holdsClaim = true) : race.holdsClaim = true ∧ effect ≠ .release := by
  cases hrace.phaseStep with
  | kept hkept heffect =>
      rw [Race.holdsClaim, hkept] at hholds
      exact ⟨hholds, heffect⟩
  | threw hracing hcaught honce => exact ⟨Race.holdsClaim_of_racing hracing, by simp⟩
  | timedOut hracing hcaught => exact ⟨Race.holdsClaim_of_racing hracing, by simp⟩
  | answered hracing hanswered heffect =>
      exact ⟨Race.holdsClaim_of_racing hracing, heffect⟩
  | released hreleasing hrecording =>
      -- The failure on the way to its release has a known outcome.
      have hunknown := hknown _ hreleasing
      rw [Race.holdsClaim, hrecording] at hholds
      exact absurd (hholds.symm.trans hunknown) (by simp)
  | failureRecorded hrecording hanswered =>
      refine ⟨?_, by simp⟩
      rw [Race.holdsClaim, hanswered] at hholds
      rw [Race.holdsClaim, hrecording]
      exact hholds

/-- A release comes from the releasing phase. -/
theorem RaceTransition.holdsClaim_of_release
    (hrace : RaceTransition library request race event next .release) :
    race.holdsClaim = true := by
  cases hrace.phaseStep with
  | kept hkept heffect => exact absurd rfl heffect
  | answered hracing hanswered heffect => exact absurd rfl heffect
  | released hreleasing hrecording => rw [Race.holdsClaim, hreleasing]

/-- What is completed is the result. -/
theorem RaceTransition.truthy_complete {response : Json}
    (hrace : RaceTransition library request race event next (.complete response)) :
    response.truthy = true := by
  generalize heffect : Effect.complete response = effect at hrace
  cases hrace with
  | completed honce =>
      split at heffect
      · cases heffect
        exact SettleResult.truthy_body _
      · cases heffect
  | _ => cases heffect

end Phases

section Step

variable {deployment : Deployment} {w : World} {handler next : Handler} {view : View}
variable {event : Event} {effect : Effect}

variable {key : String} {response : Json}

/-- Every effect but a release keeps the claims that are there. -/
theorem World.Claimed.perform (hclaimed : w.Claimed key)
    (heffect : effect ≠ .release ∨ key ≠ handler.claimKey deployment) (now : ℕ) :
    (w.perform deployment handler now effect).Claimed key := by
  by_cases hkey : key = handler.claimKey deployment
  · subst hkey
    obtain ⟨claim, hclaim⟩ := hclaimed
    cases effect with
    | begin =>
        refine Option.isSome_iff_exists.mp ?_
        simp only [World.perform, MemoryIdempotencyStore.get_begin]
        split
        · rfl
        · rw [hclaim]
          rfl
    | complete response =>
        exact ⟨_, (MemoryIdempotencyStore.get_complete _ _ _ _ _).trans (if_pos rfl)⟩
    | release => exact absurd rfl (heffect.resolve_right fun h => h rfl)
    | nothing | save | settle details | update state details => exact ⟨claim, hclaim⟩
  · obtain ⟨claim, hclaim⟩ := hclaimed
    exact ⟨claim, (World.claim_perform_of_ne now hkey).trans hclaim⟩

/-- On a claim that is there, `begin` makes nobody the owner. -/
theorem ClaimsHeld.not_claimed_of_owner (hheld : ClaimsHeld deployment w)
    (howner : beginOutcome (w.idempotency.records.get key) = .owner) : ¬ w.Claimed key := by
  rintro ⟨claim, hclaim⟩
  rw [hclaim] at howner
  cases claim with
  | pending => cases howner
  | completed statusCode response =>
      have htruthy := hheld.truthy key statusCode response hclaim
      rw [beginOutcome, if_pos htruthy] at howner
      cases howner

theorem ClaimsHeld.isOwner_begin (hheld : ClaimsHeld deployment w) (hclaimed : w.Claimed key) :
    (beginOutcome (w.idempotency.records.get key)).isOwner = false := by
  cases houtcome : beginOutcome (w.idempotency.records.get key) with
  | owner => exact absurd hclaimed (hheld.not_claimed_of_owner houtcome)
  | replayed statusCode response => rfl
  | conflict => rfl

/-- A handler that holds the claim after a step has just begun it, or held it
and did not release it. -/
theorem Transition.holdsClaim
    (hadvance : Transition deployment handler view event next effect)
    (hknown : handler.stage.ReleasesKnown) (hholds : next.HoldsClaim) :
    (view.outcome = .owner ∧ effect = .begin) ∨
      (handler.HoldsClaim ∧ effect ≠ .release) := by
  obtain ⟨record, race, hstage, hrace⟩ := hholds
  cases hadvance with
  | owned hclaiming houtcome => exact Or.inl ⟨houtcome, rfl⟩
  | raced howner hadvance =>
      cases hstage
      obtain ⟨hheld, heffect⟩ :=
        hadvance.holdsClaim (fun failure => hknown _ _ failure howner) hrace
      exact Or.inr ⟨⟨_, _, howner, hheld⟩, heffect⟩
  | _ => cases hstage

theorem Transition.releasesKnown
    (hadvance : Transition deployment handler view event next effect)
    (hknown : handler.stage.ReleasesKnown) : next.stage.ReleasesKnown := by
  intro record race failure hstage hphase
  cases hadvance with
  | owned hclaiming houtcome =>
      cases hstage
      cases hphase
  | raced howner hadvance =>
      cases hstage
      exact hadvance.releasesKnown (fun failure => hknown _ _ failure howner) hphase
  | _ => cases hstage

/-- The claim that a handler releases is one it holds. -/
theorem Transition.holdsClaim_of_release
    (hadvance : Transition deployment handler view event next .release) :
    handler.HoldsClaim := by
  generalize heffect : Effect.release = effect at hadvance
  cases hadvance with
  | raced howner hadvance =>
      subst heffect
      exact ⟨_, _, howner, hadvance.holdsClaim_of_release⟩
  | _ => cases heffect

theorem Transition.truthy_complete
    (hadvance : Transition deployment handler view event next (.complete response)) :
    response.truthy = true := by
  generalize heffect : Effect.complete response = effect at hadvance
  cases hadvance with
  | raced howner hadvance =>
      subst heffect
      exact hadvance.truthy_complete
  | _ => cases heffect

/-- Recorded responses stay truthy. -/
theorem Transition.truthy_perform {now : ℕ} {statusCode : ℕ}
    (hadvance : Transition deployment handler view event next effect)
    (htruthy : ∀ key statusCode response,
      w.idempotency.records.get key = some (.completed statusCode response) →
        response.truthy = true)
    (hclaim : (w.perform deployment handler now effect).idempotency.records.get key =
      some (.completed statusCode response)) : response.truthy = true := by
  by_cases hkey : key = handler.claimKey deployment
  · cases effect with
    | begin =>
        simp only [World.perform, MemoryIdempotencyStore.get_begin] at hclaim
        split at hclaim
        · cases hclaim
        · exact htruthy _ _ _ hclaim
    | complete body =>
        simp only [World.perform, MemoryIdempotencyStore.get_complete, if_pos hkey]
          at hclaim
        cases hclaim
        exact hadvance.truthy_complete
    | release =>
        simp only [World.perform, MemoryIdempotencyStore.get_fail, if_pos hkey] at hclaim
        exact htruthy _ _ _ (Option.filter_eq_some_iff.mp hclaim).1
    | nothing | save | settle details | update state details => exact htruthy _ _ _ hclaim
  · rw [World.claim_perform_of_ne now hkey] at hclaim
    exact htruthy _ _ _ hclaim

end Step

theorem Handler.not_holdsClaim_start (deployment : Deployment) (request : Request) :
    ¬ (Handler.start deployment request).HoldsClaim := by
  rintro ⟨record, race, hstage, -⟩
  exact Handler.start_ne_owner hstage

theorem ClaimsHeld.init (deployment : Deployment) : ClaimsHeld deployment .init where
  claimed := fun index handler hhandler => by simp [World.init] at hhandler
  unique := fun index other handler rival hhandler => by simp [World.init] at hhandler
  releasesKnown := fun index handler hhandler => by simp [World.init] at hhandler
  truthy := fun key statusCode response hclaim => by simp [World.init] at hclaim

/-- A new handler holds nothing. -/
theorem ClaimsHeld.request {deployment : Deployment} {w : World}
    (hheld : ClaimsHeld deployment w) (index : ℕ) (request : Request) :
    ClaimsHeld deployment (w.setHandler index (.start deployment request)) where
  claimed := by
    intro other handler hhandler hholds
    rcases InsertionMap.get_set_cases hhandler with ⟨-, rfl⟩ | ⟨-, hold⟩
    · exact absurd hholds (Handler.not_holdsClaim_start deployment request)
    · exact hheld.claimed other handler hold hholds
  unique := by
    intro left right handler rival hhandler hrival hholds hrivals hkey
    rcases InsertionMap.get_set_cases hhandler with ⟨-, rfl⟩ | ⟨-, hleft⟩
    · exact absurd hholds (Handler.not_holdsClaim_start deployment request)
    · rcases InsertionMap.get_set_cases hrival with ⟨-, rfl⟩ | ⟨-, hright⟩
      · exact absurd hrivals (Handler.not_holdsClaim_start deployment request)
      · exact hheld.unique left right handler rival hleft hright hholds hrivals hkey
  releasesKnown := by
    intro other handler hhandler
    rcases InsertionMap.get_set_cases hhandler with ⟨-, rfl⟩ | ⟨-, hold⟩
    · exact fun record race failure hstage => absurd hstage Handler.start_ne_owner
    · exact hheld.releasesKnown other handler hold
  truthy := hheld.truthy

/-- The one handler that moves keeps its claim, begins one that nobody holds, or
releases one that nobody else holds. -/
theorem ClaimsHeld.handler {deployment : Deployment} {w : World} {index now : ℕ}
    {event : Event} {handler next : Handler} {effect : Effect}
    (hheld : ClaimsHeld deployment w) (hhandler : w.handlers.get index = some handler)
    (hadvance : Transition deployment handler (w.view deployment handler) event next
      effect) :
    ClaimsHeld deployment
      ((w.perform deployment handler now effect).setHandler index next) := by
  have hknown := hheld.releasesKnown index handler hhandler
  have hmoved := hadvance.holdsClaim hknown
  refine ⟨?_, ?_, ?_, fun key statusCode response => hadvance.truthy_perform hheld.truthy⟩
  · intro other found hfound hholds
    simp only [World.setHandler, World.handlers_perform] at hfound
    rcases InsertionMap.get_set_cases hfound with ⟨-, rfl⟩ | ⟨hother, hold⟩
    · rw [hadvance.claimKey_eq]
      rcases hmoved hholds with ⟨howner, rfl⟩ | ⟨hheldBefore, heffect⟩
      · refine ⟨.pending, (MemoryIdempotencyStore.get_begin _ _ _).trans (if_pos ⟨rfl, ?_⟩)⟩
        rw [MemoryIdempotencyStore.begin_fst]
        change (w.view deployment handler).outcome.isOwner = true
        rw [howner]
        rfl
      · exact (hheld.claimed index handler hhandler hheldBefore).perform (Or.inl heffect) now
    · apply (hheld.claimed other found hold hholds).perform _ now
      by_cases heffect : effect = .release
      · subst heffect
        right
        intro hkey
        exact hother (hheld.unique other index found handler hold hhandler hholds
          hadvance.holdsClaim_of_release hkey)
      · exact Or.inl heffect
  · -- A rival of the handler that moves is one it had before, or has claimed the key.
    have hrival : ∀ other rival, w.handlers.get other = some rival → rival.HoldsClaim →
        next.HoldsClaim → rival.claimKey deployment = handler.claimKey deployment →
        other = index := by
      intro other rival hrival hrivals hholds hkey
      rcases hmoved hholds with ⟨howner, -⟩ | ⟨hheldBefore, -⟩
      · exact absurd (hkey ▸ hheld.claimed other rival hrival hrivals)
          (hheld.not_claimed_of_owner howner)
      · exact hheld.unique other index rival handler hrival hhandler hrivals hheldBefore hkey
    intro left right found rival hfound hright hholds hrivals hkey
    simp only [World.setHandler, World.handlers_perform] at hfound hright
    rcases InsertionMap.get_set_cases hfound with ⟨hleft, rfl⟩ | ⟨-, hold⟩
    · rcases InsertionMap.get_set_cases hright with ⟨heq, -⟩ | ⟨-, hold⟩
      · exact hleft.trans heq.symm
      · rw [hadvance.claimKey_eq] at hkey
        exact hleft.trans (hrival right rival hold hrivals hholds hkey.symm).symm
    · rcases InsertionMap.get_set_cases hright with ⟨heq, rfl⟩ | ⟨-, hold'⟩
      · rw [hadvance.claimKey_eq] at hkey
        exact (hrival left found hold hholds hrivals hkey).trans heq.symm
      · exact hheld.unique left right found rival hold hold' hholds hrivals hkey
  · intro other found hfound
    simp only [World.setHandler, World.handlers_perform] at hfound
    rcases InsertionMap.get_set_cases hfound with ⟨-, rfl⟩ | ⟨-, hold⟩
    · exact hadvance.releasesKnown hknown
    · exact hheld.releasesKnown other found hold

theorem ClaimsHeld.step {deployment : Deployment} {w w' : World} {action : Action}
    (hheld : ClaimsHeld deployment w) (hstep : step deployment w action = some w') :
    ClaimsHeld deployment w' := by
  cases steps_of_step hstep with
  | request hnew => exact hheld.request _ _
  | handler hhandler hadvance => exact hheld.handler hhandler hadvance
  | list | poll hlisted => exact ⟨hheld.claimed, hheld.unique, hheld.releasesKnown, hheld.truthy⟩

/-- In every reachable state the claims of the holders are in the store. -/
theorem claimsHeld_of_reaches {deployment : Deployment} {meets : World → Action → Prop}
    {w : World} (hreach : Reaches (X402Facilitator.step deployment) meets .init w) :
    ClaimsHeld deployment w :=
  hreach.preserves (fun _ _ _ hheld _ hstep => hheld.step hstep) (.init deployment)

/-- While a handler holds the claim of its key no other handler does, and no `begin` of the key
makes another one its owner. -/
theorem claim_is_exclusive {deployment : Deployment} {meets : World → Action → Prop} {w : World}
    {index : ℕ} {handler : Handler}
    (hreach : Reaches (X402Facilitator.step deployment) meets .init w)
    (hhandler : w.handlers.get index = some handler) (hholds : handler.HoldsClaim) :
    ∀ other rival, w.handlers.get other = some rival →
      rival.claimKey deployment = handler.claimKey deployment →
        (rival.HoldsClaim → other = index) ∧ (w.view deployment rival).outcome.isOwner = false := by
  intro other rival hrival hkey
  have hheld := claimsHeld_of_reaches hreach
  have hclaimed := hheld.claimed index handler hhandler hholds
  rw [← hkey] at hclaimed
  exact ⟨fun hrivals => hheld.unique other index rival handler hrival hhandler hrivals hholds hkey,
    hheld.isOwner_begin hclaimed⟩

theorem claim_is_exclusive_sample : ∃ w, run (X402Facilitator.step Sample.deployment) .init
    (Sample.claim 0 Sample.request ++ [.request 1 Sample.request]) = some w ∧
      ∀ rival, w.handlers.get 1 = some rival →
        rival.claimKey Sample.deployment = "order-1" →
          (w.view Sample.deployment rival).outcome.isOwner = false := by
  have hrun : ∃ w handler record race, run (X402Facilitator.step Sample.deployment) .init
      (Sample.claim 0 Sample.request ++ [.request 1 Sample.request]) = some w ∧
        w.handlers.get 0 = some handler ∧ handler.stage = .owner record race ∧
          race.holdsClaim = true ∧ handler.claimKey Sample.deployment = "order-1" :=
    ⟨_, _, _, _, rfl, rfl, rfl, rfl, rfl⟩
  obtain ⟨w, handler, record, race, hw, hhandler, hstage, hholds, hkey⟩ := hrun
  refine ⟨w, hw, fun rival hrival hsame => ?_⟩
  exact (claim_is_exclusive (reaches_of_run hw) hhandler ⟨record, race, hstage, hholds⟩ 1 rival
    hrival (hsame.trans hkey.symm)).2

end X402Facilitator
