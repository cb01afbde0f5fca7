import X402Facilitator.Rpc.BreakerSteps

/-!
# An open breaker protects its host

A breaker that is not closed has let at most one call through since it opened.  It
is asked once for a call, though, and not for each attempt: a call that was
admitted before goes on with its retries while the breaker is open.
-/

namespace X402Facilitator.RpcRetry

open Execution

variable {Host : Type*}

section Statement

def Stage.isDialling : Stage → Bool
  | .dialling _ => true
  | _ => false

/-- An unprotected call that the breaker has let through since it last opened, and
that is dialling the host. -/
structure DialsSinceOpened (s : System Host) (host : Host) (call : Call Host) : Prop where
  dialsTo : call.host = host
  guarded : call.protectedCall = false
  admitted : call.admittedIn = s.openings host
  dialling : call.stage.isDialling = true

variable [DecidableEq Host]

section

omit [DecidableEq Host]

/-- The breaker has not opened within the cooldown. -/
def Cooled (options : Options) (s : System Host) (host : Host) : Prop :=
  ∀ opened ∈ s.lastOpened host, opened + options.cooldownMs ≤ s.now

/-- The backoff of an unprotected call, if it is in one, ends after the cooldown of a breaker that
has opened at a time, or after the deadline of the call. -/
def SleepsThrough (options : Options) (opened : ℕ) (call : Call Host) : Prop :=
  call.protectedCall = false → ∀ attempt wakesAt, call.stage = .sleeping attempt wakesAt →
    opened + options.cooldownMs ≤ wakesAt ∨ pastDeadline call.deadline wakesAt = true

/-- No response closes a breaker within its cooldown.  When a failure leaves the breaker open, the
backoff that follows it lasts through the cooldown, and when it opens the breaker, so do the
backoffs that the other calls to the host are in. -/
def CoolsUndisturbed (options : Options) (s : System Host) : Action Host → Prop
  | .responds id => ∀ call ∈ s.calls id, Cooled options s call.host
  | .fails id retryable random =>
      ∀ call ∈ s.calls id, ∀ attempt, call.stage = .dialling attempt → retryable = true →
        let b := recordFailure options.threshold s.now (s.breakers call.host)
        b.state = .opened →
          SleepsThrough options b.openedAt { call with
            stage := System.afterFailure options s.now attempt call.deadline random } ∧
          ((s.breakers call.host).state ≠ .opened → ∀ other found, other ≠ id →
            s.calls other = some found → found.host = call.host →
            SleepsThrough options s.now found)
  | _ => True

end

end Statement

variable [DecidableEq Host] {options : Options} {s s' : System Host} {action : Action Host}
variable {id attempt : ℕ} {host : Host} {call : Call Host} {b : Breaker}
variable {userSignal : Option Bool}

/-- The calls that are under way at a host were admitted before its breaker opened;
the probe of a half-open one is the exception. -/
structure Admitted (s : System Host) (id : ℕ) (call : Call Host) : Prop where
  past : call.admittedIn ≤ s.openings call.host
  opened : (s.breakers call.host).state = .opened → call.admittedIn < s.openings call.host
  probing : (s.breakers call.host).state = .halfOpen →
    call.admittedIn = s.openings call.host → s.probe call.host = some id

def AllAdmitted (s : System Host) : Prop :=
  ∀ id call, s.calls id = some call → call.protectedCall = false → call.stage.inFlight = true →
    Admitted s id call

variable {stage : Stage} {random : ℚ}

omit [DecidableEq Host] in
/-- A call moves on, and was under way if it is now. -/
theorem AllAdmitted.setCall (hs : AllAdmitted s)
    (hcall : call.protectedCall = false → stage.inFlight = true → Admitted s id call) :
    AllAdmitted (s.setCall id { call with stage := stage }) := by
  intro other found hfound hguarded hlive
  rcases System.calls_setCall_cases hfound with ⟨rfl, rfl⟩ | ⟨-, hold⟩
  · obtain ⟨hpast, hopened, hprobing⟩ := hcall hguarded hlive
    exact ⟨hpast, hopened, hprobing⟩
  · obtain ⟨hpast, hopened, hprobing⟩ := hs other found hold hguarded hlive
    exact ⟨hpast, hopened, hprobing⟩

omit [DecidableEq Host] in
theorem AllAdmitted.loop (hs : AllAdmitted s)
    (hcall : call.protectedCall = false → Admitted s id call) :
    AllAdmitted (s.loop options id call userSignal attempt) := by
  rcases System.loop_cases options s id call userSignal attempt with ⟨-, hthrew⟩ | ⟨-, hdials⟩
  · rw [hthrew]
    exact hs.setCall fun hguarded _ => hcall hguarded
  · rw [hdials]
    have hset : AllAdmitted (s.setCall id { call with stage := .dialling attempt }) :=
      hs.setCall fun hguarded _ => hcall hguarded
    intro other found hfound hguarded hlive
    obtain ⟨hpast, hopened, hprobing⟩ := hset other found hfound hguarded hlive
    exact ⟨hpast, hopened, hprobing⟩

/-- A breaker closes or opens: whoever was under way was admitted before. -/
theorem Admitted.setBreaker (hcall : Admitted s id call) (hhalf : b.state ≠ .halfOpen) :
    Admitted (s.setBreaker host b) id call := by
  by_cases hhost : call.host = host
  · subst hhost
    constructor
    · exact hcall.past.trans (System.openings_le_setBreaker call.host)
    · intro hopened
      rw [System.breakers_setBreaker_self] at hopened
      rw [System.openings_setBreaker_self]
      split
      · exact Nat.lt_succ_of_le hcall.past
      · next hnot =>
          apply hcall.opened
          by_contra hclosed
          exact hnot ⟨hopened, hclosed⟩
    · intro hprobing
      rw [System.breakers_setBreaker_self] at hprobing
      exact absurd hprobing hhalf
  · constructor
    · rw [System.openings_setBreaker_of_ne hhost]
      exact hcall.past
    · rw [System.openings_setBreaker_of_ne hhost, System.breakers_setBreaker_of_ne hhost]
      exact hcall.opened
    · rw [System.openings_setBreaker_of_ne hhost, System.breakers_setBreaker_of_ne hhost]
      exact hcall.probing

theorem AllAdmitted.setBreaker (hs : AllAdmitted s) (host : Host)
    (hhalf : b.state ≠ .halfOpen) : AllAdmitted (s.setBreaker host b) :=
  fun other found hfound hguarded hlive => (hs other found hfound hguarded hlive).setBreaker hhalf

/-- The call that passes an open breaker is its probe, and the only call that was
admitted since the breaker opened. -/
theorem AllAdmitted.letIn (hs : AllAdmitted s) (hflagged : Flagged s)
    (hgate : gate options.cooldownMs s.now (s.breakers host) = some b) :
    AllAdmitted (s.letIn id host b) ∧
      (call.host = host → call.admittedIn = s.openings host →
        Admitted (s.letIn id host b) id call) := by
  rcases gate_cases hgate (hflagged host) with ⟨hclosed, rfl⟩ | ⟨hopened, -, rfl⟩
  · have hletIn : s.letIn id host (s.breakers host) = s := by
      rw [System.letIn, System.setBreaker]
      simp [hclosed]
    rw [hletIn]
    refine ⟨hs, ?_⟩
    rintro rfl hin
    refine ⟨hin.le, fun hopened => ?_, fun hhalf => ?_⟩
    · cases hclosed.symm.trans hopened
    · cases hclosed.symm.trans hhalf
  · have hopenings : ∀ other, (s.letIn id host
        { s.breakers host with state := .halfOpen, probeInFlight := true }).openings other =
          s.openings other := by
      intro other
      change Function.update s.openings host _ other = _
      simp
    have hbreakers : ∀ other, other ≠ host → (s.letIn id host
        { s.breakers host with state := .halfOpen, probeInFlight := true }).breakers other =
          s.breakers other := fun other hne => System.breakers_setBreaker_of_ne hne
    have hself : ((s.letIn id host { s.breakers host with
        state := .halfOpen, probeInFlight := true }).breakers host).state = .halfOpen := by
      change (Function.update s.breakers host _ host).state = _
      rw [Function.update_self]
    constructor
    · intro other found hfound hguarded hlive
      have hfound := hs other found hfound hguarded hlive
      by_cases hhost : found.host = host
      · have hlt : found.admittedIn < s.openings found.host :=
          hfound.opened (by rw [hhost]; exact hopened)
        refine ⟨?_, fun _ => ?_, fun _ hin => ?_⟩
        · rw [hopenings]
          exact hfound.past
        · rw [hopenings]
          exact hlt
        · rw [hopenings] at hin
          exact absurd hin hlt.ne
      · constructor
        · rw [hopenings]
          exact hfound.past
        · rw [hopenings, hbreakers _ hhost]
          exact hfound.opened
        · rw [hopenings, hbreakers _ hhost]
          intro hhalf hin
          change Function.update s.probe host _ found.host = _
          rw [Function.update_of_ne hhost]
          exact hfound.probing hhalf hin
    · rintro rfl hin
      refine ⟨?_, fun hstill => ?_, fun _ _ => ?_⟩
      · rw [hopenings]
        exact hin.le
      · cases hself.symm.trans hstill
      · change Function.update s.probe call.host _ call.host = _
        rw [Function.update_self, if_pos hopened]

omit [DecidableEq Host] in
theorem AllAdmitted.single (hs : AllAdmitted s) (hopen : (s.breakers host).state ≠ .closed)
    (hcall : s.calls id = some call) (hdials : DialsSinceOpened s host call) :
    s.probe host = some id := by
  have hlive : call.stage.inFlight = true := by
    cases hstage : call.stage <;> have hdialling := hdials.dialling <;>
      rw [hstage] at hdialling <;> first | rfl | cases hdialling
  have hadmitted := hs id call hcall hdials.guarded hlive
  have hin := hdials.admitted
  rw [← hdials.dialsTo] at hin hopen ⊢
  cases hstate : (s.breakers call.host).state with
  | closed => exact absurd hstate hopen
  | opened => exact absurd hin (hadmitted.opened hstate).ne
  | halfOpen => exact hadmitted.probing hstate hin

def Stage.attemptOf : Stage → Option ℕ
  | .dialling attempt | .sleeping attempt _ => some attempt
  | _ => none

section

omit [DecidableEq Host]

def Positive (s : System Host) : Prop :=
  ∀ id call, s.calls id = some call → ∀ attempt ∈ call.stage.attemptOf, 0 < attempt

theorem Positive.setCall (hs : Positive s) (hstage : ∀ attempt ∈ stage.attemptOf, 0 < attempt) :
    Positive (s.setCall id { call with stage := stage }) := by
  intro other found hfound
  rcases System.calls_setCall_cases hfound with ⟨-, rfl⟩ | ⟨-, hold⟩
  · exact hstage
  · exact hs other found hold

theorem Positive.loop (hs : Positive s) (hattempt : 0 < attempt) :
    Positive (s.loop options id call userSignal attempt) := by
  rcases System.loop_cases options s id call userSignal attempt with ⟨-, hthrew⟩ | ⟨-, hdials⟩
  · rw [hthrew]
    exact hs.setCall fun _ hnone => by cases hnone
  · rw [hdials]
    exact hs.setCall fun other hother => Option.some.inj hother ▸ hattempt

end

def AllCooled (options : Options) (dials : List Dial) : Prop :=
  ∀ dial ∈ dials, dial.protectedCall = false →
    ∀ opened ∈ dial.lastOpened, opened + options.cooldownMs ≤ dial.dialledAt

section

omit [DecidableEq Host]

theorem AllCooled.loop (hs : AllCooled options s.dials)
    (hdial : ¬ System.GivesUp options s call userSignal attempt → call.protectedCall = false →
      Cooled options s call.host) :
    AllCooled options (s.loop options id call userSignal attempt).dials := by
  rcases System.loop_cases options s id call userSignal attempt with
    ⟨-, hthrew⟩ | ⟨hgoes, hdials⟩
  · rw [hthrew]
    exact hs
  · rw [hdials]
    intro dial hmem hguarded opened hopened
    rcases List.mem_append.mp hmem with hold | hnew
    · exact hs dial hold hguarded opened hopened
    · obtain rfl := List.mem_singleton.mp hnew
      exact hdial hgoes hguarded opened hopened

structure Cooling (options : Options) (s : System Host) (host : Host) : Prop where
  opened : ¬ Cooled options s host → (s.breakers host).state = .opened
  sleeps : ¬ Cooled options s host → ∀ id call, s.calls id = some call → call.host = host →
    SleepsThrough options (s.breakers host).openedAt call

theorem sleepsThrough_of_ne (hstage : ∀ attempt wakesAt, call.stage ≠ .sleeping attempt wakesAt)
    (opened : ℕ) : SleepsThrough options opened call :=
  fun _ attempt wakesAt hsleeping => absurd hsleeping (hstage attempt wakesAt)

/-- A call has moved to a stage that is no backoff. -/
theorem Cooling.setCall (hs : Cooling options s host)
    (hstage : ∀ attempt wakesAt, stage ≠ .sleeping attempt wakesAt) :
    Cooling options (s.setCall id { call with stage := stage }) host where
  opened := hs.opened
  sleeps := by
    intro hwarm other found hfound hhost
    rcases System.calls_setCall_cases hfound with ⟨-, rfl⟩ | ⟨-, hold⟩
    · exact sleepsThrough_of_ne hstage _
    · exact hs.sleeps hwarm other found hold hhost

theorem Cooling.loop (hs : Cooling options s host) :
    Cooling options (s.loop options id call userSignal attempt) host := by
  rcases System.loop_cases options s id call userSignal attempt with ⟨-, hthrew⟩ | ⟨-, hdials⟩
  · rw [hthrew]
    exact hs.setCall fun _ _ hsleeping => by cases hsleeping
  · have hset : Cooling options (s.setCall id { call with stage := .dialling attempt }) host :=
      hs.setCall fun _ _ hsleeping => by cases hsleeping
    rw [hdials]
    exact ⟨hset.opened, hset.sleeps⟩

theorem cooling_of_cooled (hcooled : Cooled options s host) : Cooling options s host :=
  ⟨fun hwarm => absurd hcooled hwarm, fun hwarm => absurd hcooled hwarm⟩

end

/-- The breaker of another host has moved. -/
theorem Cooling.setBreaker_of_ne {other : Host} (hs : Cooling options s other)
    (hother : other ≠ host) : Cooling options (s.setBreaker host b) other := by
  have hbreaker : (s.setBreaker host b).breakers other = s.breakers other :=
    System.breakers_setBreaker_of_ne hother
  have hlast : (s.setBreaker host b).lastOpened other = s.lastOpened other := by
    rw [System.lastOpened, hbreaker, System.openings_setBreaker_of_ne hother, System.lastOpened]
  have hcooled : Cooled options (s.setBreaker host b) other ↔ Cooled options s other := by
    rw [Cooled, Cooled, hlast]
    exact Iff.rfl
  constructor
  · rw [hcooled, hbreaker]
    exact hs.opened
  · rw [hcooled, hbreaker]
    exact hs.sleeps

/-- A breaker that does not open keeps the time at which it last did. -/
theorem cooled_setBreaker (options : Options) (b : Breaker) (hopens : b.state ≠ .opened ∨ (s.breakers host).state = .opened)
    (hat : b.openedAt = (s.breakers host).openedAt) :
    Cooled options (s.setBreaker host b) host ↔ Cooled options s host := by
  have hopenings : (s.setBreaker host b).openings host = s.openings host := by
    rw [System.openings_setBreaker_self]
    exact if_neg fun hboth => hopens.elim (absurd hboth.1) hboth.2
  have hlast : (s.setBreaker host b).lastOpened host = s.lastOpened host := by
    rw [System.lastOpened, hopenings, System.breakers_setBreaker_self, hat, System.lastOpened]
  rw [Cooled, Cooled, hlast]
  exact Iff.rfl

/-- A call passes the breaker of a host: it was closed, or has cooled down. -/
theorem Cooling.letIn (hflagged : Flagged s)
    (hgate : gate options.cooldownMs s.now (s.breakers host) = some b)
    (hs : ∀ host, Cooling options s host) :
    Cooled options (s.letIn id host b) host ∧
      ∀ other, Cooling options (s.letIn id host b) other := by
  rcases gate_cases hgate (hflagged host) with ⟨hclosed, rfl⟩ | ⟨hopened, hcool, rfl⟩
  · have hletIn : s.letIn id host (s.breakers host) = s := by
      rw [System.letIn, System.setBreaker]
      simp [hclosed]
    rw [hletIn]
    refine ⟨?_, hs⟩
    by_contra hwarm
    cases hclosed.symm.trans ((hs host).opened hwarm)
  · have hcooled : Cooled options s host := by
      intro opened hlast
      rw [System.lastOpened] at hlast
      split at hlast
      · cases hlast
      · cases hlast
        exact hcool
    have hstays : Cooled options (s.setBreaker host
        { s.breakers host with state := .halfOpen, probeInFlight := true }) host :=
      (cooled_setBreaker options { s.breakers host with state := .halfOpen, probeInFlight := true }
        (.inl (by simp)) rfl).mpr hcooled
    refine ⟨hstays, fun other => ?_⟩
    by_cases hsame : other = host
    · subst hsame
      exact cooling_of_cooled hstays
    · obtain ⟨hstate, hsleeps⟩ := (hs other).setBreaker_of_ne (b := { s.breakers host with
        state := .halfOpen, probeInFlight := true }) hsame
      exact ⟨hstate, hsleeps⟩

/-- A failure leaves the breaker as it was, or opens it. -/
theorem Cooling.failed (hs : Cooling options s host) (hcall : s.calls id = some call)
    (hstage : call.stage = .dialling attempt)
    (hmeets : CoolsUndisturbed options s (.fails id true random)) :
    Cooling options ((s.setBreaker call.host
      (recordFailure options.threshold s.now (s.breakers call.host))).setCall id { call with
        stage := System.afterFailure options s.now attempt call.deadline random }) host := by
  by_cases hhost : host = call.host
  · subst hhost
    have hguard := hmeets call hcall attempt hstage rfl
    rcases recordFailure_cases options.threshold s.now (s.breakers call.host) with
      ⟨hsame, -, hat⟩ | ⟨hopened, hnot, hat⟩
    · have hopens : (recordFailure options.threshold s.now (s.breakers call.host)).state ≠ .opened ∨
          (s.breakers call.host).state = .opened := by
        rw [hsame]
        exact ne_or_eq _ _
      have hcooled := cooled_setBreaker options _ hopens hat
      constructor
      · intro hwarm
        rw [System.breakers_setCall, System.breakers_setBreaker_self, hsame]
        exact hs.opened fun hcool => hwarm (hcooled.mpr hcool)
      · intro hwarm other found hfound hto
        have hwarm' : ¬ Cooled options s call.host := fun hcool => hwarm (hcooled.mpr hcool)
        rw [System.breakers_setCall, System.breakers_setBreaker_self]
        rcases System.calls_setCall_cases hfound with ⟨-, rfl⟩ | ⟨-, hold⟩
        · exact (hguard (hsame.trans (hs.opened hwarm'))).1
        · rw [hat]
          exact hs.sleeps hwarm' other found hold hto
    · obtain ⟨hself, hothers⟩ := hguard hopened
      constructor
      · intro _
        rw [System.breakers_setCall, System.breakers_setBreaker_self]
        exact hopened
      · intro _ other found hfound hto
        rw [System.breakers_setCall, System.breakers_setBreaker_self]
        rcases System.calls_setCall_cases hfound with ⟨-, rfl⟩ | ⟨hne, hold⟩
        · exact hself
        · rw [hat]
          exact hothers hnot other found hne hold hto
  · obtain ⟨hopened, hsleeps⟩ := hs.setBreaker_of_ne
      (b := recordFailure options.threshold s.now (s.breakers call.host)) hhost
    refine ⟨hopened, fun hwarm other found hfound hto => ?_⟩
    rcases System.calls_setCall_cases hfound with ⟨-, rfl⟩ | ⟨-, hold⟩
    · exact absurd hto.symm hhost
    · exact hsleeps hwarm other found hold hto

def retried : List (Action Unit) :=
  [.start 0 () none none none, .fails 0 true 0, .wait 800, .wakes 0 none]

end X402Facilitator.RpcRetry
