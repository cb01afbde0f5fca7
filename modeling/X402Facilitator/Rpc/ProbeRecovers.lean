import X402Facilitator.Rpc.BreakerSteps

/-!
# The breaker does not wedge

The probe flag goes up in the gate and down with a success.  A breaker leaves the
half-open state with every response and every retryable error, so it recovers as
long as a call to its host is under way that can end with one of these; when the
last one ends with another error, the breaker stays half-open for good.
-/

namespace X402Facilitator.RpcRetry

open Execution

variable {Host : Type*}

section Statement

def Idle (s : System Host) (host : Host) : Prop :=
  ∀ id call, s.calls id = some call → call.host = host → call.stage.inFlight = false

variable [DecidableEq Host]

/-- A new unprotected call to the host is not refused, and its first attempt is dialled if it has
a signal. -/
def Admits (options : Options) (s : System Host) (host : Host) : Prop :=
  ∀ id body deadlineMs userSignal s', isSendTransaction body = false →
    step options s (.start id host body deadlineMs userSignal) = some s' →
    ∃ call, s'.calls id = some call ∧ call.stage ≠ .refused ∧
      (0 < options.attempts →
        HasSignal false (deadlineOf options deadlineMs s.now) userSignal s.now →
        call.stage = .dialling 1)

omit [DecidableEq Host] in
def Accompanied (s : System Host) (host : Host) (id : ℕ) : Prop :=
  ∃ other call, other ≠ id ∧ s.calls other = some call ∧ call.host = host ∧
    call.stage.inFlight = true

omit [DecidableEq Host] in
/-- The last call to a host whose breaker is half-open does not end with an error that the
breaker is not told of: one of its dials, one that leaves it without a signal, or the end of its
attempts or of its time after a backoff. -/
def LastEndsRecorded (options : Options) (s : System Host) : Action Host → Prop
  | .start id host body deadlineMs userSignal =>
      (s.breakers host).state = .opened → isSendTransaction body = false →
        gate options.cooldownMs s.now (s.breakers host) ≠ none →
        System.GivesUp options s (Call.made options s host body deadlineMs) userSignal 1 →
        Accompanied s host id
  | .fails id retryable _ =>
      ∀ call ∈ s.calls id, retryable = false → (s.breakers call.host).state = .halfOpen →
        Accompanied s call.host id
  | .wakes id userSignal =>
      ∀ call ∈ s.calls id, ∀ attempt wakesAt, call.stage = .sleeping attempt wakesAt →
        (s.breakers call.host).state = .halfOpen →
        System.GivesUp options s call userSignal (attempt + 1) → Accompanied s call.host id
  | _ => True

end Statement

variable [DecidableEq Host] {options : Options} {s s' : System Host} {action : Action Host}
variable {id attempt : ℕ} {host : Host} {call : Call Host} {userSignal : Option Bool}

section

omit [DecidableEq Host]

def Attended (s : System Host) (host : Host) : Prop :=
  ∃ id call, s.calls id = some call ∧ call.host = host ∧ call.stage.inFlight = true

theorem Accompanied.attended (hother : Accompanied s host id) :
    Attended (s.setCall id call) host := by
  obtain ⟨other, found, hne, hfound, hhost, hlive⟩ := hother
  exact ⟨other, found, by rw [System.calls_setCall_of_ne hne, hfound], hhost, hlive⟩

/-- A call that is in flight still, or to another host, has moved. -/
theorem Attended.setCall (hs : Attended s host) (call : Call Host)
    (hcall : ∀ found, s.calls id = some found → found.host = host →
      call.host = host ∧ call.stage.inFlight = true) : Attended (s.setCall id call) host := by
  obtain ⟨other, found, hfound, hhost, hlive⟩ := hs
  by_cases hsame : other = id
  · subst hsame
    obtain ⟨hto, hstage⟩ := hcall found hfound hhost
    exact ⟨other, call, Function.update_self .., hto, hstage⟩
  · exact ⟨other, found, by rw [System.calls_setCall_of_ne hsame, hfound], hhost, hlive⟩

theorem attended_setCall (s : System Host) (id : ℕ) (call : Call Host)
    (hlive : call.stage.inFlight = true) : Attended (s.setCall id call) call.host :=
  ⟨id, call, Function.update_self .., rfl, hlive⟩

end

structure Sound (s : System Host) : Prop where
  flagged : Flagged s
  counted : Counted s
  attended : ∀ host, (s.breakers host).state = .halfOpen → Attended s host

omit [DecidableEq Host] in
/-- A call of the head of the loop is dialled, or ends beside another one. -/
theorem attended_loop (hs : (s.breakers host).state = .halfOpen → Attended s host)
    (hcall : (s.breakers call.host).state = .halfOpen →
      System.GivesUp options s call userSignal attempt → Accompanied s call.host id)
    (hnew : ∀ found, s.calls id = some found → found.host = call.host)
    (hhalf : ((s.loop options id call userSignal attempt).breakers host).state = .halfOpen) :
    Attended (s.loop options id call userSignal attempt) host := by
  rcases System.loop_cases options s id call userSignal attempt with
    ⟨hgives, hthrew⟩ | ⟨-, hdials⟩
  · rw [hthrew] at hhalf ⊢
    by_cases hhost : call.host = host
    · subst hhost
      exact (hcall hhalf hgives).attended
    · exact (hs hhalf).setCall _ fun found hfound hto =>
        absurd ((hnew found hfound).symm.trans hto) hhost
  · rw [hdials] at hhalf ⊢
    by_cases hhost : call.host = host
    · subst hhost
      exact attended_setCall s id { call with stage := .dialling attempt } rfl
    · exact (hs hhalf).setCall { call with stage := .dialling attempt } fun found hfound hto => absurd ((hnew found hfound).symm.trans hto) hhost

omit [DecidableEq Host] in
theorem Counted.loop (hs : Counted s) :
    Counted (s.loop options id call userSignal attempt) := by
  rcases System.loop_cases options s id call userSignal attempt with ⟨-, hthrew⟩ | ⟨-, hdials⟩
  · rw [hthrew]
    exact hs
  · rw [hdials]
    exact hs

/-- The breaker of a host leaves the half-open state, or does not enter it. -/
theorem Sound.setBreaker (hs : Sound s) {b : Breaker} {stage : Stage}
    (hcall : s.calls id = some call) (hb : b.state ≠ .halfOpen) :
    Sound ((s.setBreaker call.host b).setCall id { call with stage := stage }) where
  flagged := hs.flagged.setBreaker fun hhalf => absurd hhalf hb
  counted := hs.counted.setBreaker
  attended := by
    intro host hhalf
    by_cases hhost : host = call.host
    · subst hhost
      rw [System.breakers_setCall, System.breakers_setBreaker_self] at hhalf
      exact absurd hhalf hb
    · rw [System.breakers_setCall, System.breakers_setBreaker_of_ne hhost] at hhalf
      have hattended : Attended (s.setBreaker call.host b) host := hs.attended host hhalf
      refine hattended.setCall _ fun found hfound hto => absurd ?_ hhost
      obtain rfl := Option.some.inj (hcall.symm.trans hfound)
      exact hto.symm

/-- A call passes the breaker: it is closed, or half-open from now on. -/
theorem Sound.admitted (hs : Sound s) {b : Breaker} {body : Option String}
    {deadlineMs : Option Number} (hnew : s.calls id = none)
    (hguarded : isSendTransaction body = false)
    (hgate : gate options.cooldownMs s.now (s.breakers host) = some b)
    (hmeets : LastEndsRecorded options s (.start id host body deadlineMs userSignal)) :
    Sound ((s.letIn id host b).loop options id (Call.made options s host body deadlineMs)
      userSignal 1) := by
  rcases gate_cases hgate (hs.flagged host) with ⟨hclosed, rfl⟩ | ⟨hopened, -, rfl⟩
  · have hletIn : s.letIn id host (s.breakers host) = s := by
      rw [System.letIn, System.setBreaker]
      simp [hclosed]
    rw [hletIn]
    refine ⟨hs.flagged.loop, hs.counted.loop, fun other hhalf => ?_⟩
    refine attended_loop (hs.attended other) (fun hhalf => ?_) (fun found hfound => ?_) hhalf
    · cases hclosed.symm.trans hhalf
    · cases hnew.symm.trans hfound
  · have hflagged : Flagged (s.letIn id host
        { s.breakers host with state := .halfOpen, probeInFlight := true }) :=
      hs.flagged.setBreaker fun _ => rfl
    have hcounted : Counted (s.letIn id host
        { s.breakers host with state := .halfOpen, probeInFlight := true }) :=
      hs.counted.setBreaker
    refine ⟨hflagged.loop, hcounted.loop, fun other hhalf => ?_⟩
    have hgivesUp : ∀ hgives : System.GivesUp options (s.letIn id host
        { s.breakers host with state := .halfOpen, probeInFlight := true })
        (Call.made options s host body deadlineMs) userSignal 1, Accompanied s host id :=
      hmeets hopened hguarded (by rw [hgate]; exact Option.some_ne_none _)
    by_cases hsame : other = host
    · subst hsame
      rcases System.loop_cases options (s.letIn id other
        { s.breakers other with state := .halfOpen, probeInFlight := true }) id
        (Call.made options s other body deadlineMs) userSignal 1 with ⟨hgives, hthrew⟩ | ⟨-, hdials⟩
      · rw [hthrew]
        have haccompanied : Accompanied (s.letIn id other
          { s.breakers other with state := .halfOpen, probeInFlight := true }) other id :=
            hgivesUp hgives
        exact haccompanied.attended
      · rw [hdials]
        exact attended_setCall _ id
          { Call.made options s other body deadlineMs with stage := .dialling 1 } rfl
    · refine attended_loop (fun hhalf => ?_) (fun _ => hgivesUp) (fun found hfound => ?_) hhalf
      · change ((s.setBreaker host _).breakers other).state = _ at hhalf
        rw [System.breakers_setBreaker_of_ne hsame] at hhalf
        exact hs.attended other hhalf
      · cases hnew.symm.trans hfound

omit [DecidableEq Host] in
theorem sound_init : Sound (System.init : System Host) where
  flagged := flagged_init
  counted := by
    intro host hopened
    cases hopened
  attended := by
    intro host hhalf
    cases hhalf

/-- A closed breaker lets a call through, and so does an open one after the cooldown. -/
theorem Sound.admits (hs : Sound s) (hidle : Idle s host)
    (hcooled : ∀ opened ∈ s.lastOpened host, opened + options.cooldownMs ≤ s.now) :
    Admits options s host := by
  intro id body deadlineMs userSignal s' hguarded hstep
  have hpasses : gate options.cooldownMs s.now (s.breakers host) ≠ none := by
    rw [gate]
    cases hstate : (s.breakers host).state with
    | closed => simp
    | opened =>
        have hlast : s.lastOpened host = some (s.breakers host).openedAt :=
          if_neg (hs.counted host hstate)
        simp [Nat.not_lt.mpr (hcooled _ hlast)]
    | halfOpen =>
        obtain ⟨probe, call, hcall, hto, hlive⟩ := hs.attended host hstate
        cases (hidle probe call hcall hto).symm.trans hlive
  cases step_moves hstep with
  | refused hnew hguarded hgate => exact absurd hgate hpasses
  | sending hnew hsends => cases hguarded.symm.trans hsends
  | @admitted _ _ _ _ _ b hnew hguarded hgate =>
      rcases System.loop_cases options (s.letIn id host b) id
        (Call.made options s host body deadlineMs) userSignal 1 with
          ⟨hgives, hthrew⟩ | ⟨-, hdials⟩
      · refine ⟨_, by rw [hthrew]; exact Function.update_self .., by simp,
          fun hattempts hsignal => ?_⟩
        rcases hgives with hnone | ⟨hlater, -⟩ | hunsignalled
        · exact absurd hnone (Nat.not_lt.mpr hattempts)
        · exact absurd hlater (lt_irrefl 1)
        · refine absurd ?_ hunsignalled
          change HasSignal (isSendTransaction body) _ userSignal s.now
          rw [hguarded]
          exact hsignal
      · exact ⟨_, by rw [hdials]; exact Function.update_self .., by simp, fun _ _ => rfl⟩

end X402Facilitator.RpcRetry
