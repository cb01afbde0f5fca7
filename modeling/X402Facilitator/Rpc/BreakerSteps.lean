import X402Facilitator.Rpc.Retry

/-!
# What a step of the retrying fetch can do

The one case analysis of `step`, and what the breaker functions and the loop do to
a breaker and to a call.
-/

namespace X402Facilitator.RpcRetry

variable {Host : Type*} [DecidableEq Host] {options : Options} {s s' : System Host}
variable {action : Action Host} {id : ℕ} {host other : Host} {call found : Call Host}
variable {b b' : Breaker} {now threshold cooldownMs attempt : ℕ} {userSignal : Option Bool}

/-- A failure ends the half-open state. -/
theorem recordFailure_cases (threshold now : ℕ) (b : Breaker) :
    ((recordFailure threshold now b).state = b.state ∧ b.state ≠ .halfOpen ∧
        (recordFailure threshold now b).openedAt = b.openedAt) ∨
      ((recordFailure threshold now b).state = .opened ∧ b.state ≠ .opened ∧
        (recordFailure threshold now b).openedAt = now) := by
  rw [recordFailure]
  by_cases hopened : b.state = .opened
  · left
    simp [hopened]
  · by_cases htrips : b.state = .halfOpen ∨ threshold ≤ b.consecutiveFailures + 1
    · right
      simp [htrips, hopened]
    · left
      rw [not_or] at htrips
      simp [htrips.1, htrips.2]

/-- A call passes a closed breaker, and an open one that has cooled down. -/
theorem gate_cases (hgate : gate cooldownMs now b = some b')
    (hprobe : b.state = .halfOpen → b.probeInFlight = true) :
    (b.state = .closed ∧ b' = b) ∨
      (b.state = .opened ∧ b.openedAt + cooldownMs ≤ now ∧
        b' = { b with state := .halfOpen, probeInFlight := true }) := by
  rw [gate] at hgate
  cases hstate : b.state <;> rw [hstate] at hgate
  · left
    exact ⟨rfl, (Option.some.inj hgate).symm⟩
  · right
    simp only at hgate
    split at hgate
    · cases hgate
    · next hcooled => exact ⟨rfl, Nat.le_of_not_lt hcooled, (Option.some.inj hgate).symm⟩
  · simp only [hprobe hstate] at hgate
    cases hgate

/-- A dial is given its signal, unless the time that is left until the deadline is no whole
number of 32 bits. -/
def HasSignal (protectedCall : Bool) (deadline : Option ℚ) (userSignal : Option Bool) (now : ℚ) :
    Prop :=
  protectedCall = true ∨ userSignal = some true ∨ ∀ limit ∈ deadline, ∀ ms,
    Number.nearest (limit - now) = .finite ms → ms ≤ 0 ∨ acceptsTimeout ms

theorem exists_createDeadlineSignal_iff {userSignal : Option Bool} {remainingMs : Number} :
    (∃ signal, createDeadlineSignal userSignal remainingMs = .ok signal) ↔
      userSignal = some true ∨ ∀ ms, remainingMs = .finite ms → ms ≤ 0 ∨ acceptsTimeout ms := by
  cases remainingMs with
  | nan => simp [createDeadlineSignal]
  | infinity negative => simp [createDeadlineSignal]
  | finite ms =>
      rw [createDeadlineSignal]
      by_cases hpast : ms ≤ 0
      · simp [hpast]
      · by_cases huser : userSignal = some true
        · simp [hpast, huser]
        · by_cases haccepts : acceptsTimeout ms
          · by_cases hnone : userSignal = none
            · simp [hpast, haccepts, hnone]
            · simp [hpast, huser, haccepts, hnone]
          · simp [hpast, huser, haccepts]

theorem hasSignal_iff {protectedCall : Bool} {deadline : Option ℚ} {userSignal : Option Bool}
    {now : ℚ} : HasSignal protectedCall deadline userSignal now ↔
      ∃ signal, signalOf protectedCall deadline userSignal now = .ok signal := by
  cases deadline with
  | none => simp [HasSignal, signalOf]
  | some limit =>
      cases protectedCall with
      | true => simp [HasSignal, signalOf]
      | false =>
          simp only [HasSignal, signalOf, Bool.false_eq_true, if_false, false_or,
            exists_createDeadlineSignal_iff, Option.mem_def, Option.some.injEq, forall_eq']

theorem pastDeadline_of_le {deadline : Option ℚ} {earlier later : ℚ}
    (hpast : pastDeadline deadline earlier = true) (hle : earlier ≤ later) :
    pastDeadline deadline later = true := by
  cases deadline with
  | none => cases hpast
  | some limit =>
      rw [pastDeadline, Option.any_some, decide_eq_true_eq] at *
      exact hpast.trans hle

namespace System

omit [DecidableEq Host] in
@[simp]
theorem breakers_setCall : (s.setCall id call).breakers = s.breakers := rfl

@[simp]
theorem breakers_setBreaker_self : (s.setBreaker host b).breakers host = b :=
  Function.update_self ..

theorem breakers_setBreaker_of_ne (hother : other ≠ host) :
    (s.setBreaker host b).breakers other = s.breakers other :=
  Function.update_of_ne hother ..

theorem openings_setBreaker_of_ne (hother : other ≠ host) :
    (s.setBreaker host b).openings other = s.openings other :=
  Function.update_of_ne hother ..

theorem openings_setBreaker_self :
    (s.setBreaker host b).openings host =
      if b.state = .opened ∧ (s.breakers host).state ≠ .opened then s.openings host + 1
      else s.openings host :=
  Function.update_self ..

theorem openings_le_setBreaker (other : Host) :
    s.openings other ≤ (s.setBreaker host b).openings other := by
  by_cases hother : other = host
  · subst hother
    rw [openings_setBreaker_self]
    split
    · exact Nat.le_succ _
    · exact le_rfl
  · rw [openings_setBreaker_of_ne hother]

section

omit [DecidableEq Host]

/-- A call is where it was, or is the one that has moved. -/
theorem calls_setCall_cases {other : ℕ} (hfound : (s.setCall id call).calls other = some found) :
    (other = id ∧ found = call) ∨ (other ≠ id ∧ s.calls other = some found) := by
  rcases Execution.update_cases hfound with ⟨rfl, hcall⟩ | hrest
  · exact Or.inl ⟨rfl, (Option.some.inj hcall).symm⟩
  · exact Or.inr hrest

theorem calls_setCall_of_ne {other : ℕ} (hother : other ≠ id) :
    (s.setCall id call).calls other = s.calls other :=
  Function.update_of_ne hother ..

def GivesUp (options : Options) (s : System Host) (call : Call Host) (userSignal : Option Bool)
    (attempt : ℕ) : Prop :=
  options.attempts < attempt ∨ (1 < attempt ∧ pastDeadline call.deadline s.now = true) ∨
    ¬ HasSignal call.protectedCall call.deadline userSignal s.now

/-- The head of the loop gives up or dials. -/
theorem loop_cases (options : Options) (s : System Host) (id : ℕ) (call : Call Host)
    (userSignal : Option Bool) (attempt : ℕ) :
    (GivesUp options s call userSignal attempt ∧
      s.loop options id call userSignal attempt = s.setCall id { call with stage := .threw }) ∨
      (¬ GivesUp options s call userSignal attempt ∧
        s.loop options id call userSignal attempt =
          { s.setCall id { call with stage := .dialling attempt } with
            dials := s.dials ++ [⟨call.protectedCall, s.now, s.lastOpened call.host⟩] }) := by
  by_cases hgives : GivesUp options s call userSignal attempt
  · refine .inl ⟨hgives, ?_⟩
    rcases hgives with hattempts | ⟨hlater, hpast⟩ | hsignal
    · rw [loop, if_pos hattempts]
    · rw [loop]
      split
      · rfl
      · rw [if_pos (by simp [hlater, hpast])]
    · rw [loop]
      split
      · rfl
      · split
        · rfl
        · cases hsignalOf : signalOf call.protectedCall call.deadline userSignal s.now with
          | error err => rfl
          | ok signal => exact absurd (hasSignal_iff.mpr ⟨signal, hsignalOf⟩) hsignal
  · refine .inr ⟨hgives, ?_⟩
    rw [GivesUp, not_or, not_or, not_not, not_and] at hgives
    obtain ⟨hattempts, hdeadline, hsignal⟩ := hgives
    obtain ⟨signal, hsignal⟩ := hasSignal_iff.mp hsignal
    have hhead : ¬ (decide (1 < attempt) && pastDeadline call.deadline s.now) = true := by
      rw [Bool.and_eq_true, decide_eq_true_eq, not_and]
      exact hdeadline
    rw [loop, if_neg hattempts, if_neg hhead, hsignal]

end

def letIn (s : System Host) (id : ℕ) (host : Host) (b : Breaker) : System Host :=
  { s.setBreaker host b with
    probe := Function.update s.probe host
      (if (s.breakers host).state = .opened then some id else s.probe host) }

end System

def Call.made (options : Options) (s : System Host) (host : Host) (body : Option String)
    (deadlineMs : Option Number) : Call Host :=
  ⟨host, isSendTransaction body, deadlineOf options deadlineMs s.now, .dialling 0,
    s.openings host⟩

inductive Moves (options : Options) (s : System Host) : Action Host → System Host → Prop
  | refused {id : ℕ} {host : Host} {body : Option String} {deadlineMs : Option Number}
      {userSignal : Option Bool}
      (hnew : s.calls id = none)
      (hguarded : isSendTransaction body = false)
      (hgate : gate options.cooldownMs s.now (s.breakers host) = none) :
      Moves options s (.start id host body deadlineMs userSignal)
        (s.setCall id { Call.made options s host body deadlineMs with stage := .refused })
  | sending {id : ℕ} {host : Host} {body : Option String} {deadlineMs : Option Number}
      {userSignal : Option Bool}
      (hnew : s.calls id = none)
      (hsends : isSendTransaction body = true) :
      Moves options s (.start id host body deadlineMs userSignal)
        (s.loop options id (Call.made options s host body deadlineMs) userSignal 1)
  | admitted {id : ℕ} {host : Host} {body : Option String} {deadlineMs : Option Number}
      {userSignal : Option Bool} {b : Breaker} (hnew : s.calls id = none)
      (hguarded : isSendTransaction body = false)
      (hgate : gate options.cooldownMs s.now (s.breakers host) = some b) :
      Moves options s (.start id host body deadlineMs userSignal)
        ((s.letIn id host b).loop options id (Call.made options s host body deadlineMs) userSignal 1)
  | responded {id attempt : ℕ} {call : Call Host}
      (hcall : s.calls id = some call)
      (hstage : call.stage = .dialling attempt) :
      Moves options s (.responds id)
        ((s.setBreaker call.host (recordSuccess (s.breakers call.host))).setCall id
          { call with stage := .returned })
  | failed {id attempt : ℕ} {random : ℚ} {call : Call Host}
      (hcall : s.calls id = some call)
      (hstage : call.stage = .dialling attempt) :
      Moves options s (.fails id true random)
        ((s.setBreaker call.host
            (recordFailure options.threshold s.now (s.breakers call.host))).setCall id
          { call with
            stage := System.afterFailure options s.now attempt call.deadline random })
  | threw {id attempt : ℕ} {random : ℚ} {call : Call Host}
      (hcall : s.calls id = some call)
      (hstage : call.stage = .dialling attempt) :
      Moves options s (.fails id false random) (s.setCall id { call with stage := .threw })
  | woke {id attempt wakesAt : ℕ} {call : Call Host} {userSignal : Option Bool}
      (hcall : s.calls id = some call)
      (hstage : call.stage = .sleeping attempt wakesAt) (hwakes : wakesAt ≤ s.now) :
      Moves options s (.wakes id userSignal) (s.loop options id call userSignal (attempt + 1))
  | waited (ms : ℕ) : Moves options s (.wait ms) { s with now := s.now + ms }

theorem step_moves (hstep : step options s action = some s') : Moves options s action s' := by
  cases action with
  | start id host body deadlineMs userSignal =>
      simp only [step] at hstep
      split at hstep
      · cases hstep
      · next hnew =>
          split at hstep
          · next hsends =>
              cases hstep
              exact .sending hnew hsends
          · next hguarded =>
              rw [Bool.not_eq_true] at hguarded
              split at hstep
              · next hgate =>
                  cases hstep
                  exact .refused hnew hguarded hgate
              · next hgate =>
                  cases hstep
                  exact .admitted hnew hguarded hgate
  | responds id =>
      simp only [step] at hstep
      split at hstep
      · next hcall =>
          split at hstep
          · next hstage =>
              cases hstep
              exact .responded hcall hstage
          · cases hstep
      · cases hstep
  | fails id retryable random =>
      simp only [step] at hstep
      split at hstep
      · next hcall =>
          split at hstep
          · next hstage =>
              cases retryable with
              | true =>
                  cases hstep
                  exact .failed hcall hstage
              | false =>
                  cases hstep
                  exact .threw hcall hstage
          · cases hstep
      · cases hstep
  | wakes id userSignal =>
      simp only [step] at hstep
      split at hstep
      · next hcall =>
          split at hstep
          · next hstage =>
              split at hstep
              · next hwakes =>
                  cases hstep
                  exact .woke hcall hstage hwakes
              · cases hstep
          · cases hstep
      · cases hstep
  | wait ms =>
      cases hstep
      exact .waited ms

def Flagged (s : System Host) : Prop :=
  ∀ host, (s.breakers host).state = .halfOpen → (s.breakers host).probeInFlight = true

theorem Flagged.setBreaker (hs : Flagged s)
    (hb : b.state = .halfOpen → b.probeInFlight = true) : Flagged (s.setBreaker host b) := by
  intro other hother
  by_cases hsame : other = host
  · subst hsame
    rw [System.breakers_setBreaker_self] at hother ⊢
    exact hb hother
  · rw [System.breakers_setBreaker_of_ne hsame] at hother ⊢
    exact hs other hother

omit [DecidableEq Host] in
theorem Flagged.loop (hs : Flagged s) :
    Flagged (s.loop options id call userSignal attempt) := by
  rcases System.loop_cases options s id call userSignal attempt with ⟨-, hthrew⟩ | ⟨-, hdials⟩
  · rw [hthrew]
    exact hs
  · rw [hdials]
    exact hs

omit [DecidableEq Host] in
theorem flagged_init : Flagged (System.init : System Host) := by
  intro host hhalf
  cases hhalf

def Counted (s : System Host) : Prop :=
  ∀ host, (s.breakers host).state = .opened → s.openings host ≠ 0

theorem Counted.setBreaker (hs : Counted s) : Counted (s.setBreaker host b) := by
  intro other hother
  by_cases hsame : other = host
  · subst hsame
    rw [System.breakers_setBreaker_self] at hother
    rw [System.openings_setBreaker_self]
    split
    · exact Nat.succ_ne_zero _
    · next hnot =>
        apply hs other
        by_contra hclosed
        exact hnot ⟨hother, hclosed⟩
  · rw [System.breakers_setBreaker_of_ne hsame] at hother
    rw [System.openings_setBreaker_of_ne hsame]
    exact hs other hother

end X402Facilitator.RpcRetry
