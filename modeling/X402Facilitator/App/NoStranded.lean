import X402Facilitator.App.Provenance

/-!
# No submission is stranded

A handler saves its record as `submitted` before it knows whether it owns the
claim.  While the record is in that state some handler of its key should still
have an outcome to write.  A handler that loses its claim writes none, and
neither does a `facilitator.settle` that throws after its request was answered:
the record stays behind if nobody else is left to resolve it.
-/

namespace X402Facilitator

open X402Facilitator.Execution

/-- `settleOnce` has not come to its write yet. -/
def OncePhase.beforeWrite : OncePhase → Bool
  | awaitingLock => true
  | settling => true
  | metering _ => true
  | storing _ => true
  | _ => false

def OncePhase.isSettling : OncePhase → Bool
  | settling => true
  | _ => false

/-- The request will write an outcome before it is answered, or its
`facilitator.settle` is still in flight. -/
def Race.owes (race : Race) : Bool :=
  match race.phase with
  | .racing => race.once.beforeWrite
  | .releasing _ => true
  | .recordingFailure _ => true
  | .answered _ => race.once.isSettling

def Handler.owes (handler : Handler) : Bool :=
  match handler.stage with
  | .claiming _ => true
  | .owner _ race => race.owes
  | _ => false

/-- The request has been answered, and no `facilitator.settle` of it is in
flight. -/
def Handler.finished (handler : Handler) : Bool :=
  match handler.stage with
  | .declined _ => true
  | .owner _ ⟨.answered _, once, _, _⟩ => !once.isSettling
  | _ => false

/-- Where every handler of a key has finished, its record is not `submitted`. -/
def NoneStranded (deployment : Deployment) (meets : World → Action → Prop) : Prop :=
  ∀ w, Reaches (step deployment) meets .init w → ∀ key,
    (∀ index handler, w.handlers.get index = some handler →
      handler.storeKey deployment = key → handler.finished = true) →
    ∀ record, w.store.get key = some record → record.state ≠ .submitted

/-- A handler other than `index` has an outcome of `key` to write. -/
def World.OwedElsewhere (deployment : Deployment) (w : World) (index : ℕ)
    (key : String) : Prop :=
  ∃ other rival, other ≠ index ∧ w.handlers.get other = some rival ∧
    rival.storeKey deployment = key ∧ rival.owes = true

/-- The handler leaves in this await without writing an outcome: it has lost its
claim, or its `facilitator.settle` ends after the request was answered. -/
def Handler.leaves (handler : Handler) (view : View) (event : Event) : Prop :=
  match event, handler.stage with
  | .claimBegun, .claiming _ => view.outcome ≠ .owner
  | .settleReturned _, .owner _ race => ∃ reply, race.phase = .answered reply
  | .settleThrew _, .owner _ race => ∃ reply, race.phase = .answered reply
  | _, _ => False

/-- A handler leaves no `submitted` record behind for which no other handler has
still an outcome to write. -/
def LeavesNoSubmitted (deployment : Deployment) (w : World) : Action → Prop
  | .handler index event _ => ∀ handler record, w.handlers.get index = some handler →
      handler.leaves (w.view deployment handler) event →
      w.store.get (handler.storeKey deployment) = some record →
      record.state = .submitted →
        w.OwedElsewhere deployment index (handler.storeKey deployment)
  | _ => True

theorem Handler.owes_of_finished {handler : Handler} (hfinished : handler.finished = true) :
    handler.owes = false := by
  rw [finished] at hfinished
  split at hfinished
  · next hstage => rw [owes, hstage]
  · next hstage =>
      rw [owes, hstage]
      simpa [Race.owes] using hfinished
  · cases hfinished

def SubmittedOwed (deployment : Deployment) (w : World) : Prop :=
  ∀ key record, w.store.get key = some record → record.state = .submitted →
    ∃ index handler, w.handlers.get index = some handler ∧
      handler.storeKey deployment = key ∧ handler.owes = true

def Effect.resolves : Effect → Bool
  | settle _ => true
  | update _ _ => true
  | _ => false

section Moves

variable {library : Library} {request : Request} {race next : Race}
variable {event : Event} {effect : Effect}

theorem Race.owes_caught {error : ThrownError} (hphase : next.phase = race.caught request error) :
    next.owes = true := by
  rcases race.caught_cases request error with ⟨failure, hcaught⟩ | ⟨failure, hcaught⟩ <;>
    rw [owes, hphase, hcaught]

/-- A request that has been answered owes through its `facilitator.settle` only. -/
theorem Race.not_answered_of_owes (howes : race.owes = true)
    (hsettling : race.once.isSettling = false) (reply : Reply) :
    race.phase ≠ .answered reply := by
  intro hanswered
  rw [owes, hanswered] at howes
  exact absurd (hsettling.symm.trans howes) (by simp)

/-- A phase of its own makes the race owe; otherwise `settleOnce` does. -/
theorem Race.owes_of_phase_eq (hphase : next.phase = race.phase)
    (hracing : race.phase = .racing → next.once.beforeWrite = true)
    (hanswered : ∀ reply, race.phase = .answered reply → next.once.isSettling = true) :
    next.owes = true := by
  rw [owes, hphase]
  split
  · next hbefore => exact hracing hbefore
  · rfl
  · rfl
  · next reply hbefore => exact hanswered reply hbefore

theorem Race.owes_onceThrows (hopen : ∀ reply, race.phase ≠ .answered reply)
    (error : ThrownError) : (race.onceThrows request error).owes = true := by
  have hphase := race.phase_onceThrows request error
  cases hbefore : race.phase with
  | racing =>
      rw [hbefore] at hphase
      exact owes_caught hphase
  | releasing failure => rw [owes, hphase, hbefore]
  | recordingFailure failure => rw [owes, hphase, hbefore]
  | answered reply => exact absurd hbefore (hopen reply)

/-- A race that owes an outcome writes it, or owes it still, unless its
`facilitator.settle` ends after the answer. -/
theorem RaceTransition.owes
    (hrace : RaceTransition library request race event next effect)
    (howes : race.owes = true)
    (hsilent : (∃ result, event = .settleReturned result) ∨
      (∃ error, event = .settleThrew error) → ∀ reply, race.phase ≠ .answered reply) :
    next.owes = true ∨ effect.resolves = true := by
  have hopen : race.once.isSettling = false → ∀ reply, race.phase ≠ .answered reply :=
    race.not_answered_of_owes howes
  -- Past its write `settleOnce` makes no race owe: the catch branch does.
  have hwritten : race.once.beforeWrite = false → race.phase ≠ .racing := by
    intro hbefore hracing
    rw [Race.owes, hracing] at howes
    exact absurd (hbefore.symm.trans howes) (by simp)
  cases hrace with
  | locked honce => exact Or.inl (Race.owes_of_phase_eq rfl (fun _ => rfl) fun _ _ => rfl)
  | lockTimedOut honce =>
      exact Or.inl (Race.owes_onceThrows (hopen (by rw [honce]; rfl)) _)
  | lockLost => exact Or.inl howes
  | broadcast honce => exact Or.inl howes
  | returned honce =>
      left
      apply Race.owes_of_phase_eq rfl (fun _ => rfl)
      intro reply hanswered
      exact absurd hanswered (hsilent (Or.inl ⟨_, rfl⟩) reply)
  | threw honce => exact Or.inl (Race.owes_onceThrows (hsilent (Or.inr ⟨_, rfl⟩)) _)
  | metered honce =>
      left
      apply Race.owes_of_phase_eq rfl (fun _ => rfl)
      intro reply hanswered
      exact absurd hanswered (hopen (by rw [honce]; rfl) reply)
  | stored honce hsuccess => exact Or.inr rfl
  | rejected honce hfailure => exact Or.inr rfl
  | cataloged honce =>
      left
      apply Race.owes_of_phase_eq rfl
      · intro hracing
        exact absurd hracing (hwritten (by rw [honce]; rfl))
      · intro reply hanswered
        exact absurd hanswered (hopen (by rw [honce]; rfl) reply)
  | @completed result recorded honce =>
      have hracing : race.phase ≠ .racing := hwritten (by rw [honce]; rfl)
      have hsame : (race.onceReturns result).phase = race.phase := by
        rw [Race.phase_onceReturns]
        split
        · next hphase => exact absurd hphase hracing
        · rfl
      left
      apply Race.owes_of_phase_eq hsame
      · intro hphase
        exact absurd hphase hracing
      · intro reply hanswered
        exact absurd hanswered (hopen (by rw [honce]; rfl) reply)
  | timedOut hracing => exact Or.inl (Race.owes_caught rfl)
  | released hreleasing => exact Or.inl rfl
  | failureRecorded hrecording => exact Or.inr rfl

end Moves

section Step

variable {deployment : Deployment} {w w' : World} {handler next : Handler} {view : View}
variable {event : Event} {effect : Effect}

/-- A handler that owes an outcome writes it, owes it still, or leaves. -/
theorem Transition.owes (hadvance : Transition deployment handler view event next effect)
    (howes : handler.owes = true) :
    next.owes = true ∨ effect.resolves = true ∨ handler.leaves view event := by
  cases hadvance with
  | rateAllowed hstage => rw [Handler.owes, hstage] at howes; cases howes
  | rateRefused hstage => rw [Handler.owes, hstage] at howes; cases howes
  | answered hstage hreply => rw [Handler.owes, hstage] at howes; cases howes
  | missed hstage hnone => rw [Handler.owes, hstage] at howes; cases howes
  | saved hstage => exact Or.inl rfl
  | owned hstage houtcome =>
      left
      cases deployment.distributedLock with
      | false => rfl
      | true => rfl
  | replayed hstage houtcome | conflicted hstage houtcome =>
      right
      right
      simp only [Handler.leaves, hstage, houtcome]
      simp
  | @raced record race after _ _ hstage hrace =>
      by_cases hleaves : handler.leaves view event
      · exact Or.inr (Or.inr hleaves)
      · have hsilent : (∃ result, event = .settleReturned result) ∨
            (∃ error, event = .settleThrew error) → ∀ reply,
              race.phase ≠ .answered reply := by
          rintro (⟨result, rfl⟩ | ⟨error, rfl⟩) reply hanswered
          · simp only [Handler.leaves, hstage] at hleaves
            exact hleaves ⟨reply, hanswered⟩
          · simp only [Handler.leaves, hstage] at hleaves
            exact hleaves ⟨reply, hanswered⟩
        have hrace' : race.owes = true := by
          rw [Handler.owes, hstage] at howes
          exact howes
        exact (hrace.owes hrace' hsilent).imp_right Or.inl

theorem TargetState.toState_ne_submitted (state : TargetState) :
    state.toState ≠ .submitted := by
  cases state <;> simp [TargetState.toState]

variable {key : String} {now index : ℕ} {record : Settlement ℕ}

/-- An updated record is not `submitted`. -/
theorem MemorySettlementStore.get_updateState_submitted {store : MemorySettlementStore ℕ}
    {other : String} {state : TargetState} {details : StateDetails}
    (hget : (store.updateState now key state details).1.get other = some record)
    (hsubmitted : record.state = .submitted) :
    store.get other = some record ∧ (other = key → store.stream key = []) := by
  rw [get_updateState] at hget
  split at hget
  · cases hget
    exact absurd hsubmitted state.toState_ne_submitted
  · next hother =>
      refine ⟨hget, fun hkey => ?_⟩
      by_contra hne
      exact hother ⟨hkey, hne⟩

/-- Where a handler has not just saved it, a `submitted` record was there before,
and the handler has not written an outcome to it. -/
theorem submitted_of_perform (htraced : Traced deployment w)
    (hhandler : w.handlers.get index = some handler) (hwrites : Writes handler event effect)
    (hget : (w.perform deployment handler now effect).store.get key = some record)
    (hsubmitted : record.state = .submitted) :
    (effect = .save ∧ key = handler.storeKey deployment) ∨
      (w.store.get key = some record ∧
        (key = handler.storeKey deployment → effect.resolves = false)) := by
  have hupdate : ∀ record' race state details, handler.stage = .owner record' race →
      (w.store.updateState now (handler.storeKey deployment) state details).1.get key =
        some record →
      w.store.get key = some record ∧
        (key = handler.storeKey deployment → effect.resolves = false) := by
    intro record' race state details hstage hget
    have hsaved := htraced.saved index handler hhandler
      (Handler.hasSaved_of_isOwner (Handler.isOwner_of_stage hstage))
    have hbefore := MemorySettlementStore.get_updateState_submitted hget hsubmitted
    exact ⟨hbefore.1, fun hkey => absurd (hbefore.2 hkey) hsaved⟩
  cases hwrites with
  | nothing => exact Or.inr ⟨hget, fun _ => rfl⟩
  | save hstage =>
      by_cases hkey : key = handler.storeKey deployment
      · exact Or.inl ⟨rfl, hkey⟩
      · right
        have hsame := (MemorySettlementStore.get_save w.store now
          (handler.savedRecord deployment) key).trans (if_neg hkey)
        exact ⟨hsame.symm.trans hget, fun h => absurd h hkey⟩
  | begin hstage => exact Or.inr ⟨hget, fun _ => rfl⟩
  | settle hstage honce hsuccess => exact Or.inr (hupdate _ _ _ _ hstage hget)
  | reject hstage honce hfailure => exact Or.inr (hupdate _ _ _ _ hstage hget)
  | complete hstage honce => exact Or.inr ⟨hget, fun _ => rfl⟩
  | release hstage hphase => exact Or.inr ⟨hget, fun _ => rfl⟩
  | failure hstage hphase => exact Or.inr (hupdate _ _ _ _ hstage hget)

theorem Transition.owes_of_save
    (hadvance : Transition deployment handler view event next .save) :
    next.owes = true := by
  generalize heffect : Effect.save = effect at hadvance
  cases hadvance with
  | saved hstage => rfl
  | raced hstage hrace =>
      cases hrace with
      | completed honce => split at heffect <;> cases heffect
      | _ => cases heffect
  | _ => cases heffect

/-- The handler that moves leaves every `submitted` record owed. -/
theorem SubmittedOwed.moved (howed : SubmittedOwed deployment w) (htraced : Traced deployment w)
    (hhandler : w.handlers.get index = some handler)
    (hmeets : LeavesNoSubmitted deployment w (.handler index event now))
    (hadvance : Transition deployment handler (w.view deployment handler) event next
      effect) : SubmittedOwed deployment
      ((w.perform deployment handler now effect).setHandler index next) := by
  intro key record hget hsubmitted
  have hself : next.owes = true → key = handler.storeKey deployment →
      ∃ index' found, ((w.perform deployment handler now effect).setHandler index
        next).handlers.get index' = some found ∧ found.storeKey deployment = key ∧
        found.owes = true := fun howes hkey =>
    ⟨index, next, InsertionMap.get_set_self _ _ _, hadvance.storeKey_eq.trans hkey.symm, howes⟩
  have hother : ∀ other rival, other ≠ index → w.handlers.get other = some rival →
      rival.storeKey deployment = key → rival.owes = true →
      ∃ index' found, ((w.perform deployment handler now effect).setHandler index
        next).handlers.get index' = some found ∧ found.storeKey deployment = key ∧
        found.owes = true := by
    intro other rival hne hrival hkey howes
    refine ⟨other, rival, ?_, hkey, howes⟩
    simp only [World.setHandler, World.handlers_perform]
    rw [InsertionMap.get_set_of_ne _ _ hne, hrival]
  rcases submitted_of_perform htraced hhandler hadvance.writes hget hsubmitted with
    ⟨rfl, hkey⟩ | ⟨hbefore, hopen⟩
  · exact hself hadvance.owes_of_save hkey
  · obtain ⟨owing, found, hfound, hfoundKey, hfoundOwes⟩ := howed key record hbefore hsubmitted
    by_cases howing : owing = index
    · subst howing
      rw [hhandler] at hfound
      cases hfound
      rcases hadvance.owes hfoundOwes with howes | hresolves | hleaves
      · exact hself howes hfoundKey.symm
      · rw [hopen hfoundKey.symm] at hresolves
        cases hresolves
      · obtain ⟨other, rival, hne, hrival, hkey, howes⟩ :=
          hmeets handler record hhandler hleaves (hfoundKey ▸ hbefore) hsubmitted
        exact hother other rival hne hrival (hkey.trans hfoundKey) howes
    · exact hother owing found howing hfound hfoundKey hfoundOwes

theorem SubmittedOwed.step {action : Action} (howed : SubmittedOwed deployment w)
    (htraced : Traced deployment w) (hmeets : LeavesNoSubmitted deployment w action)
    (hstep : X402Facilitator.step deployment w action = some w') :
    SubmittedOwed deployment w' := by
  cases steps_of_step hstep with
  | @request new request hnew =>
      intro key record hget hsubmitted
      obtain ⟨index, handler, hhandler, howes⟩ := howed key record hget hsubmitted
      refine ⟨index, handler, ?_, howes⟩
      rw [World.setHandler, InsertionMap.get_set_of_ne, hhandler]
      intro hindex
      rw [hindex, hnew] at hhandler
      cases hhandler
  | handler hhandler hadvance => exact howed.moved htraced hhandler hmeets hadvance
  | list => exact howed
  | @poll sweep now answer listed records hlisted =>
      intro key record hget hsubmitted
      apply howed key record _ hsubmitted
      cases hresolve : resolve deployment.reconcile (fun _ _ => answer) listed with
      | none =>
          simp only [hresolve] at hget
          exact hget
      | some resolution =>
          simp only [hresolve, applyResolution_some] at hget
          exact (MemorySettlementStore.get_updateState_submitted hget hsubmitted).1

end Step

/-- In the runs whose handlers leave no `submitted` record behind, none is
stranded. -/
theorem noneStranded_leavesNoSubmitted (deployment : Deployment) :
    NoneStranded deployment (LeavesNoSubmitted deployment) := by
  intro w hreach key hfinished record hget hsubmitted
  have howed : Traced deployment w ∧ SubmittedOwed deployment w := by
    apply hreach.preserves fun _ _ _ h hmeets hstep =>
      ⟨h.1.step hstep, h.2.step h.1 hmeets hstep⟩
    refine ⟨.init deployment, fun key record hget => ?_⟩
    simp [World.init] at hget
  obtain ⟨index, handler, hhandler, hkey, howes⟩ := howed.2 key record hget hsubmitted
  rw [Handler.owes_of_finished (hfinished index handler hhandler hkey)] at howes
  cases howes

def replayAfterSave : List Action :=
  Sample.aliceSettles ++ [.handler 0 (.outcomeCompleted true) 0] ++ Sample.bobRequests ++
    [.handler 1 .claimBegun 0]

/-- Then its own record stays behind, `submitted`. -/
theorem not_noneStranded_anyStep : ¬ NoneStranded Sample.deployment anyStep := by
  intro hnone
  have hrun : (run (step Sample.deployment) .init replayAfterSave).map
      (fun w => (w.handlers.keys, [0, 1].map fun index =>
        (w.handlers.get index).map Handler.finished,
        (w.store.get "BOB:order-1").map Settlement.state)) =
        some ([0, 1], [some true, some true], some .submitted) := by
    decide
  obtain ⟨w, hreach, hobserved⟩ := exists_reaches_of_run hrun
  obtain ⟨hkeys, hpair⟩ := Prod.mk.inj hobserved
  obtain ⟨hfinished, hstate⟩ := Prod.mk.inj hpair
  obtain ⟨record, hget, hsubmitted⟩ := Option.map_eq_some_iff.mp hstate
  refine hnone w hreach "BOB:order-1" ?_ record hget hsubmitted
  intro index handler hhandler _
  have hmem : index ∈ w.handlers.keys := by
    rw [InsertionMap.mem_keys_iff, hhandler]
    rfl
  simp only [List.map_cons, List.map_nil, List.cons.injEq, and_true] at hfinished
  rw [hkeys] at hmem
  simp only [List.mem_cons, List.not_mem_nil, or_false] at hmem
  rcases hmem with rfl | rfl
  · rw [hhandler] at hfinished
    exact Option.some.inj hfinished.1
  · rw [hhandler] at hfinished
    exact Option.some.inj hfinished.2

end X402Facilitator
