import X402Facilitator.App.Claims
import X402Facilitator.App.Provenance

/-!
# Failures after the broadcast

Once a transaction has been handed to the network a failing settlement must keep
its claim, record an unknown outcome and answer so.  The catch branch reads the
flag of the broadcast for one error code only; every other thrown error releases
the claim and records a failure, broadcast or not.
-/

namespace X402Facilitator

open X402Facilitator.Execution

def Reply.saysUnknown : Reply → Bool
  | .failure recorded _ => recorded.outcomeUnknown
  | _ => false

/-- From here on the handler does not release its claim, which nobody else comes
to own; what it records is an unknown outcome, and what it answers is
`submitted_outcome_unknown`. -/
def HeldUntilKnown (deployment : Deployment) (index : ℕ) (w : World) : Prop :=
  ∀ w', Reaches (step deployment) anyStep w w' →
    ∀ handler record race, w'.handlers.get index = some handler →
      handler.stage = .owner record race →
        (∀ now, step deployment w' (.handler index .claimReleased now) = none) ∧
        (beginOutcome
          (w'.idempotency.records.get (handler.claimKey deployment))).isOwner = false ∧
        (∀ now w'', step deployment w' (.handler index .failureRecorded now) = some w'' →
          (w''.store.get (handler.storeKey deployment)).map Settlement.state =
            some .unknown) ∧
        ∀ reply, race.phase = .answered reply → reply.saysUnknown = true

/-- `facilitator.settle` throws, or the request times out. -/
def Event.fails : Event → Bool
  | settleThrew _ => true
  | timedOut => true
  | _ => false

/-- The errors for which the catch branch goes by the broadcast: the two codes of
the request timeout. -/
def Event.isTimeoutError : Event → Bool
  | settleThrew error =>
      error.code == some "SUBMITTED_OUTCOME_UNKNOWN" || error.code == some "REQUEST_TIMEOUT"
  | _ => true

/-- The request still waits, and the error is one of the timeout's; or it has
already timed out after the broadcast. -/
def Race.keepsUnknown (race : Race) (event : Event) : Bool :=
  match race.phase with
  | .racing => event.isTimeoutError
  | .releasing _ => false
  | .recordingFailure failure => failure.outcomeUnknown
  | .answered reply => reply.saysUnknown

def Race.inUnknown (race : Race) : Bool :=
  match race.phase with
  | .recordingFailure failure => failure.outcomeUnknown
  | .answered reply => reply.saysUnknown
  | _ => false

section Catch

variable {request : Request} {race : Race} {error : ThrownError}

theorem errorReasonFor_submitted_iff :
    errorReasonFor error true = "submitted_outcome_unknown" ↔
      (error.code == some "SUBMITTED_OUTCOME_UNKNOWN" ||
        error.code == some "REQUEST_TIMEOUT") = true := by
  rw [Bool.or_eq_true, beq_iff_eq, beq_iff_eq, errorReasonFor]
  by_cases hunknown : error.code = some "SUBMITTED_OUTCOME_UNKNOWN"
  · simp [hunknown]
  · by_cases htimeout : error.code = some "REQUEST_TIMEOUT"
    · simp [htimeout]
    · rw [if_neg hunknown, if_neg htimeout, iff_false_right (not_or.mpr ⟨hunknown, htimeout⟩)]
      split
      · simp
      · split
        · simp
        · split <;> simp

theorem Race.outcomeUnknown_failure (hsubmitted : race.submitted.isSome = true) :
    (race.failure request error).outcomeUnknown =
      (error.code == some "SUBMITTED_OUTCOME_UNKNOWN" ||
        error.code == some "REQUEST_TIMEOUT") := by
  rw [Bool.eq_iff_iff, ← errorReasonFor_submitted_iff, Failure.outcomeUnknown, beq_iff_eq,
    failure, hsubmitted]

theorem Race.caught_ne_racing : race.caught request error ≠ .racing := by
  rcases race.caught_cases request error with ⟨failure, hcaught⟩ | ⟨failure, hcaught⟩ <;>
    simp [hcaught]

/-- What the catch branch makes of an error after the broadcast. -/
theorem Race.inUnknown_caught (hsubmitted : race.submitted.isSome = true)
    (after : Race) (hphase : after.phase = race.caught request error) :
    after.inUnknown = (error.code == some "SUBMITTED_OUTCOME_UNKNOWN" ||
      error.code == some "REQUEST_TIMEOUT") := by
  rw [← Race.outcomeUnknown_failure hsubmitted]
  cases hunknown : (race.failure request error).outcomeUnknown with
  | true =>
      rw [inUnknown, hphase, caught, if_pos hunknown]
      exact hunknown
  | false =>
      rw [inUnknown, hphase, caught, if_neg (by simp [hunknown])]

end Catch

section Race

variable {library : Library} {request : Request} {race next : Race}
variable {event : Event} {effect : Effect}

theorem Race.inUnknown_congr {other : Race} (hphase : other.phase = race.phase) :
    other.inUnknown = race.inUnknown := by
  rw [inUnknown, inUnknown, hphase]

/-- Whether the outcome is kept unknown is decided in the step that fails. -/
theorem RaceTransition.inUnknown_of_fails
    (hrace : RaceTransition library request race event next effect)
    (hsubmitted : race.submitted.isSome = true) (hfails : event.fails = true) :
    next.inUnknown = race.keepsUnknown event ∧ next.phase ≠ .racing := by
  cases hrace with
  | @threw error honce =>
      have hphase := race.phase_onceThrows request error
      cases hbefore : race.phase with
      | racing =>
          rw [hbefore] at hphase
          constructor
          · rw [Race.inUnknown_caught hsubmitted _ hphase, Race.keepsUnknown, hbefore]
            rfl
          · rw [hphase]
            exact Race.caught_ne_racing
      | releasing failure | recordingFailure failure | answered reply =>
          rw [hbefore] at hphase
          rw [Race.inUnknown, Race.keepsUnknown, hphase, hbefore]
          simp
  | timedOut hracing =>
      constructor
      · rw [Race.inUnknown_caught hsubmitted _ rfl, Race.keepsUnknown, hracing, hsubmitted]
        rfl
      · exact Race.caught_ne_racing
  | _ => cases hfails

/-- An outcome that is kept unknown stays so, and its claim is not released. -/
theorem RaceTransition.inUnknown_mono
    (hrace : RaceTransition library request race event next effect)
    (hunknown : race.inUnknown = true) : next.inUnknown = true := by
  have hracing : race.phase ≠ .racing := by
    intro hphase
    rw [Race.inUnknown, hphase] at hunknown
    cases hunknown
  cases hrace.phaseStep with
  | kept hkept heffect => exact (Race.inUnknown_congr hkept).trans hunknown
  | threw hphase hcaught honce => exact absurd hphase hracing
  | timedOut hphase hcaught => exact absurd hphase hracing
  | answered hphase hanswered heffect => exact absurd hphase hracing
  | released hreleasing hrecording =>
      rw [Race.inUnknown, hreleasing] at hunknown
      cases hunknown
  | failureRecorded hrecording hanswered =>
      rw [Race.inUnknown, hrecording] at hunknown
      rw [Race.inUnknown, hanswered]
      exact hunknown

theorem Race.holdsClaim_of_inUnknown (hunknown : race.inUnknown = true) :
    race.holdsClaim = true := by
  cases hphase : race.phase with
  | racing => exact Race.holdsClaim_of_racing hphase
  | releasing failure =>
      rw [holdsClaim, hphase]
  | recordingFailure failure =>
      rw [inUnknown, hphase] at hunknown
      rw [holdsClaim, hphase]
      exact hunknown
  | answered reply =>
      rw [inUnknown, hphase] at hunknown
      rw [holdsClaim, hphase]
      cases reply with
      | failure recorded network => exact hunknown
      | _ => rfl

theorem Race.advance_claimReleased {failure : Failure}
    (hphase : race.phase = .releasing failure) :
    race.advance request library .claimReleased =
      some ({ race with phase := .recordingFailure failure }, .release) := by
  rw [advance]
  split <;> simp_all

theorem Race.advance_failureRecorded {failure : Failure}
    (hphase : race.phase = .recordingFailure failure) :
    race.advance request library .failureRecorded =
      some ({ race with phase := .answered (.failure failure request.network) },
        .update failure.targetState failure.details) := by
  rw [advance]
  split <;> simp_all

end Race

def Handler.InUnknown (handler : Handler) : Prop :=
  ∃ record race, handler.stage = .owner record race ∧ race.inUnknown = true

def InUnknownAt (index : ℕ) (w : World) : Prop :=
  ∃ handler, w.handlers.get index = some handler ∧ handler.InUnknown

theorem Transition.inUnknown_mono {deployment : Deployment} {handler next : Handler}
    {view : View} {event : Event} {effect : Effect} (hunknown : handler.InUnknown)
    (hadvance : Transition deployment handler view event next effect) :
    next.InUnknown := by
  obtain ⟨record, race, hstage, hunknown⟩ := hunknown
  obtain ⟨after, hrace, rfl⟩ := hadvance.race_of_owner hstage
  exact ⟨record, after, rfl, hrace.inUnknown_mono hunknown⟩

section Later

variable {deployment : Deployment} {w w' : World} {index now : ℕ} {handler : Handler}
variable {record : Option (Settlement ℕ)} {race : Race}

theorem InUnknownAt.of_reaches (hunknown : InUnknownAt index w)
    (hlater : Reaches (step deployment) anyStep w w') : InUnknownAt index w' := by
  apply hlater.preserves _ hunknown
  rintro before action after ⟨found, hfound, hunknown⟩ - hstep
  obtain ⟨next, hnext, -, hstill⟩ := exists_after_of_mono Handler.InUnknown hstep
    (fun _ _ _ _ hunknown hadvance => hadvance.inUnknown_mono hunknown) hfound hunknown
  exact ⟨next, hnext, hstill⟩

/-- The unknown outcome is what the catch branch records. -/
theorem state_of_failureRecorded (htraced : Traced deployment w)
    (hhandler : w.handlers.get index = some handler)
    (hstage : handler.stage = .owner record race) (hunknown : race.inUnknown = true)
    (hstep : step deployment w (.handler index .failureRecorded now) = some w') :
    (w'.store.get (handler.storeKey deployment)).map Settlement.state = some .unknown := by
  obtain ⟨next, effect, hrace, rfl⟩ := race_of_step hhandler hstage hstep
  cases hrace with
  | @failureRecorded failure hphase =>
      have hne : w.store.stream (handler.storeKey deployment) ≠ [] :=
        htraced.saved index handler hhandler
          (Handler.hasSaved_of_isOwner (Handler.isOwner_of_stage hstage))
      have hstate : failure.targetState = .unknown := by
        rw [Race.inUnknown, hphase] at hunknown
        rw [Failure.targetState, if_pos hunknown]
      simp only [World.setHandler, World.perform, MemorySettlementStore.get_updateState]
      rw [if_pos ⟨trivial, hne⟩, hstate]
      rfl

/-- A handler whose outcome is unknown holds its claim from then on. -/
theorem heldUntilKnown_of_inUnknown (hreach : Reaches (step deployment) anyStep .init w)
    (hhandler : w.handlers.get index = some handler)
    (hstage : handler.stage = .owner record race) (hunknown : race.inUnknown = true) :
    HeldUntilKnown deployment index w := by
  intro w' hlater found record' race' hfound howner
  have hunknown' : race'.inUnknown = true := by
    have hstart : InUnknownAt index w := ⟨handler, hhandler, record, race, hstage, hunknown⟩
    obtain ⟨after, hafter, _, _, hafterStage, hafterUnknown⟩ := hstart.of_reaches hlater
    rw [hfound] at hafter
    cases hafter
    rw [howner] at hafterStage
    cases hafterStage
    exact hafterUnknown
  have hreach' := hreach.trans hlater
  refine ⟨?_, ?_, ?_, ?_⟩
  · intro now
    by_contra hsome
    obtain ⟨w'', hstep⟩ := Option.ne_none_iff_exists'.mp hsome
    obtain ⟨next, effect, hrace, -⟩ := race_of_step hfound howner hstep
    cases hrace with
    | released hphase =>
        rw [Race.inUnknown, hphase] at hunknown'
        cases hunknown'
  · apply (claimsHeld_of_reaches hreach').isOwner_begin
    apply (claimsHeld_of_reaches hreach').claimed index found hfound
    exact ⟨record', race', howner, Race.holdsClaim_of_inUnknown hunknown'⟩
  · intro now w'' hstep
    exact state_of_failureRecorded (traced_of_reaches hreach') hfound howner hunknown' hstep
  · intro reply hphase
    rw [Race.inUnknown, hphase] at hunknown'
    exact hunknown'

/-- A catch branch that has not found the outcome unknown releases the claim, or
answers that the settlement failed. -/
theorem inUnknown_of_heldUntilKnown (hheld : HeldUntilKnown deployment index w)
    (hhandler : w.handlers.get index = some handler)
    (hstage : handler.stage = .owner record race) (hcaught : race.phase ≠ .racing) :
    race.inUnknown = true := by
  have hnow := hheld w (.refl w) handler record race hhandler hstage
  cases hphase : race.phase with
  | racing => exact absurd hphase hcaught
  | releasing failure =>
      have hrelease : step deployment w (.handler index .claimReleased 0) = some _ :=
        step_of_advance hhandler hstage (by simp) (Race.advance_claimReleased hphase)
      rw [hnow.1 0] at hrelease
      cases hrelease
  | recordingFailure failure =>
      have hrecorded : step deployment w (.handler index .failureRecorded 0) = some _ :=
        step_of_advance hhandler hstage (by simp) (Race.advance_failureRecorded hphase)
      have hlater := hheld _ ((Reaches.refl w).tail trivial hrecorded) _ record _
        (InsertionMap.get_set_self _ _ _) rfl
      have hsays := hlater.2.2.2 _ rfl
      rw [Race.inUnknown, hphase]
      exact hsays
  | answered reply =>
      rw [Race.inUnknown, hphase]
      exact hnow.2.2.2 reply hphase

end Later

/-- Every failure after the broadcast is held until its outcome is known. -/
def FailuresAreHeld (deployment : Deployment) : Prop :=
  ∀ w w' index now event handler record race, Reaches (step deployment) anyStep .init w →
    w.handlers.get index = some handler → handler.stage = .owner record race →
    race.submitted.isSome = true → Event.fails event = true →
    step deployment w (.handler index event now) = some w' →
      HeldUntilKnown deployment index w'

/-- After the broadcast a failing settlement is held until its outcome is known
exactly when the failure is the request timeout, or a thrown error with one of
its codes, or the request had already timed out after the broadcast. -/
theorem heldUntilKnown_iff_keepsUnknown {deployment : Deployment} {w w' : World}
    {index now : ℕ} {event : Event} {handler : Handler}
    {record : Option (Settlement ℕ)} {race : Race}
    (hreach : Reaches (step deployment) anyStep .init w)
    (hhandler : w.handlers.get index = some handler)
    (hstage : handler.stage = .owner record race)
    (hsubmitted : race.submitted.isSome = true) (hfails : event.fails = true)
    (hstep : step deployment w (.handler index event now) = some w') :
    HeldUntilKnown deployment index w' ↔ race.keepsUnknown event = true := by
  obtain ⟨next, effect, hrace, hw'⟩ := race_of_step hhandler hstage hstep
  obtain ⟨hkeeps, hcaught⟩ := hrace.inUnknown_of_fails hsubmitted hfails
  have hnext : w'.handlers.get index = some (handler.moveTo (.owner record next)) := by
    rw [hw']
    exact InsertionMap.get_set_self _ _ _
  rw [← hkeeps]
  constructor
  · intro hheld
    exact inUnknown_of_heldUntilKnown hheld hnext rfl hcaught
  · intro hunknown
    exact heldUntilKnown_of_inUnknown (hreach.tail trivial hstep) hnext rfl hunknown

def Stage.inFlight : Stage → Option String
  | .owner _ ⟨.racing, .settling, submitted, _⟩ => submitted
  | _ => none

theorem Sample.exists_inFlight : ∃ w handler record lockLost,
    Reaches (step deployment) anyStep .init w ∧ w.handlers.get 0 = some handler ∧
      handler.stage = .owner record ⟨.racing, .settling, some "ab12", lockLost⟩ := by
  have hrun : (run (step deployment) .init
      (claim 0 request ++ [.handler 0 (.broadcast "ab12") 0])).map
      (fun w => (w.handlers.get 0).map fun handler => handler.stage.inFlight) =
        some (some (some "ab12")) := by
    decide
  obtain ⟨w, hreach, hobserved⟩ := exists_reaches_of_run hrun
  obtain ⟨handler, hhandler, hflight⟩ := Option.map_eq_some_iff.mp hobserved
  unfold Stage.inFlight at hflight
  split at hflight
  · next record submitted lockLost hstage =>
      subst hflight
      exact ⟨w, handler, record, lockLost, hreach, hhandler, hstage⟩
  · cases hflight

/-- A timeout after the broadcast is held. -/
theorem exists_heldUntilKnown_timedOut : ∃ w w',
    step Sample.deployment w (.handler 0 .timedOut 0) = some w' ∧
      HeldUntilKnown Sample.deployment 0 w' := by
  obtain ⟨w, handler, record, lockLost, hreach, hhandler, hstage⟩ := Sample.exists_inFlight
  have hstep : step Sample.deployment w (.handler 0 .timedOut 0) = some _ :=
    step_of_advance hhandler hstage (by simp) rfl
  exact ⟨w, _, hstep,
    (heldUntilKnown_iff_keepsUnknown hreach hhandler hstage rfl rfl hstep).mpr rfl⟩

def connectionError : ThrownError := ⟨none, false, some "fetch failed", "fetch failed"⟩

/-- The claim is then released. -/
theorem not_failuresAreHeld : ¬ FailuresAreHeld Sample.deployment := by
  intro hheld
  obtain ⟨w, handler, record, lockLost, hreach, hhandler, hstage⟩ := Sample.exists_inFlight
  have hstep : step Sample.deployment w (.handler 0 (.settleThrew connectionError) 0) =
      some _ :=
    step_of_advance hhandler hstage (by simp) rfl
  have hnext := hheld w _ 0 0 _ handler record _ hreach hhandler hstage rfl rfl hstep
  have hunknown := inUnknown_of_heldUntilKnown hnext (InsertionMap.get_set_self _ _ _) rfl
    (by rw [Race.phase_onceThrows]; exact Race.caught_ne_racing)
  rw [Race.inUnknown_caught rfl _ (Race.phase_onceThrows _ _ _)] at hunknown
  exact absurd hunknown (by decide)

end X402Facilitator
