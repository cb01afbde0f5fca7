import X402Facilitator.Rpc.BreakerSteps

/-!
# One call of the retrying fetch

The loop of attempts of one call, with everything that it reads: the clock at each place where it
is read, the signal of the caller, the outcomes of the dials and the draws of the jitter.
-/

namespace X402Facilitator.RetryingFetch

open RpcRetry

/-- The doubled base delay does not come to an infinity below zero, or to `NaN`. -/
def Doubles (base : ℚ) (attempt : ℕ) : Prop :=
  0 < base ∨ (attempt ≤ 1024 ∧ -2 ^ 1024 < base * 2 ^ (attempt - 1))

def Between (low high : ℚ) (delay : Number) : Prop :=
  .finite low ≤ delay ∧ delay ≤ .finite high

section Delays

variable {options : BackoffOptions} {attempt : ℕ} {random : ℚ} {delay : Number}

/-- The delay before the jitter, which is a double. -/
theorem expDelay_eq (hone : 1 ≤ attempt) (hdoubles : Doubles options.baseDelayMs attempt) :
    ∃ delay : ℚ, expDelay options attempt = .finite delay ∧ Number.IsDouble delay ∧
      min options.maxDelayMs (options.baseDelayMs * 2 ^ (attempt - 1)) ≤ delay ∧
      delay ≤ options.maxDelayMs := by
  have hcapped : ∀ product : Number, product = .infinity false →
      ∃ delay : ℚ, Number.min (.finite options.maxDelayMs) product = .finite delay ∧
        Number.IsDouble delay ∧
        min options.maxDelayMs (options.baseDelayMs * 2 ^ (attempt - 1)) ≤ delay ∧
        delay ≤ options.maxDelayMs := by
    rintro _ rfl
    exact ⟨options.maxDelayMs, by simp, options.isDouble_maxDelayMs, min_le_left _ _, le_rfl⟩
  rw [expDelay, max_eq_right hone, Number.twoPow]
  split
  · next hsmall =>
      rw [Number.mul]
      by_cases hover : 2 ^ 1024 ≤ options.baseDelayMs * 2 ^ (attempt - 1)
      · exact hcapped _ (Number.nearest_of_le hover)
      · have hlow : -2 ^ 1024 < options.baseDelayMs * 2 ^ (attempt - 1) := by
          rcases hdoubles with hpos | ⟨-, hlow⟩
          · have hproduct : 0 < options.baseDelayMs * 2 ^ (attempt - 1) := by positivity
            exact lt_trans (neg_neg_of_pos (by positivity)) hproduct
          · exact hlow
        have hdouble : Number.IsDouble (options.baseDelayMs * 2 ^ (attempt - 1)) :=
          ⟨options.isDouble_baseDelayMs.1.mul_pow _, abs_lt.mpr ⟨hlow, not_le.mp hover⟩⟩
        rw [Number.nearest_of_isDouble hdouble, Number.min_finite]
        refine ⟨_, rfl, ?_, le_rfl, min_le_left _ _⟩
        rcases min_choice options.maxDelayMs (options.baseDelayMs * 2 ^ (attempt - 1)) with
          hmax | hproduct
        · rw [hmax]
          exact options.isDouble_maxDelayMs
        · rw [hproduct]
          exact hdouble
  · next hlarge =>
      rcases hdoubles with hpos | ⟨hle, -⟩
      · refine hcapped _ ?_
        rw [Number.mul, if_neg hpos.ne', decide_eq_false (not_lt.mpr hpos.le)]
        rfl
      · omega

/-- What a draw adds is not negative. -/
theorem jitterVal_nonneg (hrandom : 0 ≤ random) (bound : ℚ) :
    Number.finite 0 ≤ (if Number.finite 0 < .finite bound then
      Number.floor (Number.mul (.finite random) (.finite bound)) else .finite 0) := by
  split
  · next hpos =>
      rw [Number.finite_lt_finite] at hpos
      exact Number.floor_nonneg
        (Number.le_nearest Number.isDouble_zero (mul_nonneg hrandom hpos.le))
  · exact Number.finite_le_finite.mpr le_rfl

theorem jittered_between (hone : 1 ≤ attempt) (hdoubles : Doubles options.baseDelayMs attempt)
    (hrandom : 0 ≤ random) (bound : ℚ) :
    Between (min options.maxDelayMs (options.baseDelayMs * 2 ^ (attempt - 1)))
      options.maxDelayMs (jittered options attempt random (.finite bound)) := by
  obtain ⟨delay, heq, hdouble, hlow, hhigh⟩ := expDelay_eq hone hdoubles
  have hsum := Number.le_add hdouble (jitterVal_nonneg hrandom bound)
  rw [jittered, heq]
  generalize Number.add (.finite delay) _ = sum at hsum
  cases sum with
  | nan => exact absurd hsum Number.not_le_nan
  | infinity negative =>
      obtain rfl := Number.finite_le_infinity.mp hsum
      simp [Between]
  | finite value =>
      rw [Number.min_finite]
      exact ⟨le_min (min_le_left _ _) (hlow.trans (Number.finite_le_finite.mp hsum)),
        Number.finite_le_finite.mpr (min_le_left _ _)⟩

/-- A delay lies between the doubled base and the cap. -/
theorem calculateBackoff_between (hone : 1 ≤ attempt)
    (hdoubles : Doubles options.baseDelayMs attempt) (hrandom : 0 ≤ random) :
    Between (min options.maxDelayMs (options.baseDelayMs * 2 ^ (attempt - 1)))
      options.maxDelayMs (calculateBackoff options attempt random) := by
  obtain ⟨delay, heq, -, hlow, hhigh⟩ := expDelay_eq hone hdoubles
  have hself : Between (min options.maxDelayMs (options.baseDelayMs * 2 ^ (attempt - 1)))
      options.maxDelayMs (expDelay options attempt) := by
    rw [heq]
    exact ⟨hlow, hhigh⟩
  rw [calculateBackoff]
  cases options.jitter with
  | off => exact hself
  | on =>
      simp only [heq, Number.min_finite]
      exact jittered_between hone hdoubles hrandom _
  | bound ms =>
      dsimp only
      split
      · exact hself
      · exact jittered_between hone hdoubles hrandom ms

def Bottomless (number : Number) : Prop := number = .nan ∨ number = .infinity true

theorem Bottomless.min (hdelay : Bottomless delay) (x : ℚ) :
    Bottomless (Number.min (.finite x) delay) := by
  rcases hdelay with rfl | rfl
  · exact .inl Number.min_nan
  · exact .inr (by simp)

theorem Bottomless.add (hdelay : Bottomless delay) (other : Number) :
    Bottomless (Number.add delay other) := by
  rcases hdelay with rfl | rfl
  · exact .inl (by cases other <;> rfl)
  · cases other with
    | nan => exact .inl rfl
    | infinity negative =>
        cases negative with
        | true => exact .inr rfl
        | false => exact .inl rfl
    | finite value => exact .inr rfl

end Delays

/-! ## The loop -/

/-- `hasStore` is whether the call is made under a request state, and `hasSignal` whether it comes
with a signal. -/
structure Request where
  body : Option String
  deadlineMs : Option Number
  hasStore : Bool
  hasSignal : Bool

/-- What an attempt meets: the clock at the head of the loop, before the dial and after an error,
the signal of the caller, the outcome of the dial and the draw for the delay. -/
structure Attempt (Response : Type*) where
  headAt : ℚ
  dialAt : ℚ
  failedAt : ℚ
  userAborted : Bool
  outcome : Except RpcError Response
  random : ℚ

/-- The attempts count from one.  The clock does not go back, a signal stays aborted, and a draw
is below one. -/
structure Environment (Response : Type*) where
  startTime : ℚ
  attempts : ℕ → Attempt Response
  start_le : startTime ≤ (attempts 1).headAt
  head_le : ∀ attempt, (attempts attempt).headAt ≤ (attempts attempt).dialAt
  dial_le : ∀ attempt, (attempts attempt).dialAt ≤ (attempts attempt).failedAt
  failed_le : ∀ attempt, (attempts attempt).failedAt ≤ (attempts (attempt + 1)).headAt
  staysAborted : ∀ attempt, (attempts attempt).userAborted = true →
    (attempts (attempt + 1)).userAborted = true
  random_nonneg : ∀ attempt, 0 ≤ (attempts attempt).random
  random_lt : ∀ attempt, (attempts attempt).random < 1

/-- What a call does: it marks its request state, passes the breaker, dials, tells the breaker,
reports a retry and sleeps. -/
inductive Event where
  | submitted
  | admitted (breaker : Breaker)
  | dial (attempt : ℕ) (signal : Signal)
  | success
  | failure
  | retry (code : Option String) (attempt : ℕ) (delay : Number)
  | sleep (attempt : ℕ) (delay : Number)

inductive Result (Response : Type*) where
  | refused
  | returned (res : Response)
  | threw (lastError : Option RpcError)

section Loop

variable {Response : Type*} (options : Options) (request : Request) (env : Environment Response)

def dialSignal (deadline : Option ℚ) (meets : Attempt Response) : Except RpcError Signal :=
  signalOf (isSendTransaction request.body) deadline
    (if request.hasSignal then some meets.userAborted else none) meets.dialAt

/-- The `catch` block: what it does, and whether the loop goes on. -/
def caught (deadline : Option ℚ) (attempt : ℕ) (meets : Attempt Response) (err : RpcError) :
    List Event × Bool :=
  if ¬ err.retryable then ([], false)
  else if attempt = options.attempts then ([.failure], false)
  else if pastDeadline deadline meets.failedAt then ([.failure], false)
  else
    let delay := calculateBackoff options.backoff attempt meets.random
    if endsLate deadline meets.failedAt delay then ([.failure], false)
    else ([.failure, .retry err.retryCode attempt delay, .sleep attempt delay], true)

end Loop

section Promises

variable {Response : Type*} (options : Options) (request : Request) (env : Environment Response)

/-- The attempt has failed with an error that may be retried. -/
def MayRetry (attempt : ℕ) : Prop :=
  ∃ err, (env.attempts attempt).outcome = .error err ∧ err.retryable = true

def Allowed (deadline : Option ℚ) : Event → Prop
  | .dial attempt signal =>
      (1 < attempt → ∀ limit ∈ deadline, (env.attempts attempt).headAt < limit) ∧
        dialSignal request deadline (env.attempts attempt) = .ok signal ∧
        (isSendTransaction request.body = true → signal = .asItCame) ∧
        (isSendTransaction request.body = false →
          ∀ limit ∈ deadline, limit ≤ (env.attempts attempt).dialAt → signal = .aborted) ∧
        ∀ earlier, 1 ≤ earlier → earlier < attempt → MayRetry env earlier
  | .sleep attempt delay =>
      (∀ limit ∈ deadline,
        Number.add (.finite (env.attempts attempt).failedAt) delay ≤ .finite limit) ∧
        attempt < options.attempts ∧
        delay = calculateBackoff options.backoff attempt (env.attempts attempt).random ∧
        ∀ earlier, 1 ≤ earlier → earlier ≤ attempt → MayRetry env earlier
  | _ => True

omit env in
/-- The number of the attempt that an event dials. -/
def Event.dialled : Event → Option ℕ
  | dial attempt _ => some attempt
  | _ => none

def dialled (events : List Event) : List ℕ := events.filterMap Event.dialled

omit env in
def Result.ofOutcome : Except RpcError Response → Result Response
  | .ok res => .returned res
  | .error err => .threw (some err)

structure Safe (deadline : Option ℚ) (events : List Event) (result : Result Response) : Prop where
  bounded : ∃ count ≤ options.attempts, dialled events = List.range' 1 count
  allowed : ∀ event ∈ events, Allowed options request env deadline event
  last : ∀ attempt ∈ (dialled events).getLast?,
    result = Result.ofOutcome (env.attempts attempt).outcome
  admitted : isSendTransaction request.body = true → result ≠ .refused
  delays : ∀ attempt random, 1 ≤ attempt → attempt < options.attempts → 0 ≤ random →
    random < 1 → Between
      (min options.backoff.maxDelayMs (options.backoff.baseDelayMs * 2 ^ (attempt - 1)))
      options.backoff.maxDelayMs (calculateBackoff options.backoff attempt random)

def Signalled (deadline : Option ℚ) (attempt : ℕ) : Prop :=
  HasSignal (isSendTransaction request.body) deadline
    (if request.hasSignal then some (env.attempts attempt).userAborted else none)
    (env.attempts attempt).dialAt

/-- The loop comes to an attempt, if none before it is left without a signal. -/
structure ComesTo (deadline : Option ℚ) (attempt : ℕ) : Prop where
  within : attempt ≤ options.attempts
  intime : pastDeadline deadline (env.attempts attempt).headAt = false
  retried : ∀ earlier, 1 ≤ earlier → earlier < attempt → MayRetry env earlier ∧
    endsLate deadline (env.attempts earlier).failedAt
      (calculateBackoff options.backoff earlier (env.attempts earlier).random) = false

end Promises

/-! ## Traces -/

section Traces

variable {Response : Type*} {options : Options} {request : Request} {env : Environment Response}
variable {deadline : Option ℚ} {attempt : ℕ} {lastError : Option RpcError}
variable {events : List Event} {result : Result Response}

def Starts (env : Environment Response) (deadline : Option ℚ) (attempt : ℕ) : Prop :=
  1 < attempt → pastDeadline deadline (env.attempts attempt).headAt = false

def delayAfter (options : Options) (env : Environment Response) (attempt : ℕ) : Number :=
  calculateBackoff options.backoff attempt (env.attempts attempt).random

inductive Trace (options : Options) (request : Request) (env : Environment Response)
    (deadline : Option ℚ) : ℕ → Option RpcError → List Event → Result Response → Prop where
  | exhausted {attempt : ℕ} {lastError : Option RpcError}
      (hend : options.attempts < attempt ∨
        (1 < attempt ∧ pastDeadline deadline (env.attempts attempt).headAt = true)) :
      Trace options request env deadline attempt lastError [] (.threw lastError)
  | unsignalled {attempt : ℕ} {lastError : Option RpcError}
      (hstarts : Starts env deadline attempt)
      (hsignal : dialSignal request deadline (env.attempts attempt) = .error rangeError) :
      Trace options request env deadline attempt lastError [] (.threw (some rangeError))
  | answered {attempt : ℕ} {lastError : Option RpcError} {signal : Signal} {res : Response}
      (hattempt : attempt ≤ options.attempts) (hstarts : Starts env deadline attempt)
      (hsignal : dialSignal request deadline (env.attempts attempt) = .ok signal)
      (houtcome : (env.attempts attempt).outcome = .ok res) :
      Trace options request env deadline attempt lastError [.dial attempt signal, .success]
        (.returned res)
  | failed {attempt : ℕ} {lastError : Option RpcError} {signal : Signal} {err : RpcError}
      {records : List Event}
      (hattempt : attempt ≤ options.attempts) (hstarts : Starts env deadline attempt)
      (hsignal : dialSignal request deadline (env.attempts attempt) = .ok signal)
      (houtcome : (env.attempts attempt).outcome = .error err)
      (hrecords : records = [] ∨ records = [.failure])
      (hstops : err.retryable = false ∨ attempt = options.attempts ∨
        pastDeadline deadline (env.attempts attempt).failedAt = true ∨
        endsLate deadline (env.attempts attempt).failedAt (delayAfter options env attempt) =
          true) :
      Trace options request env deadline attempt lastError (.dial attempt signal :: records)
        (.threw (some err))
  | retried {attempt : ℕ} {lastError : Option RpcError} {signal : Signal} {err : RpcError}
      {events : List Event} {result : Result Response}
      (hattempt : attempt < options.attempts) (hstarts : Starts env deadline attempt)
      (hsignal : dialSignal request deadline (env.attempts attempt) = .ok signal)
      (houtcome : (env.attempts attempt).outcome = .error err) (hretry : err.retryable = true)
      (hwithin : endsLate deadline (env.attempts attempt).failedAt
        (delayAfter options env attempt) = false)
      (hrest : Trace options request env deadline (attempt + 1) (some err) events result) :
      Trace options request env deadline attempt lastError
        (.dial attempt signal :: .failure ::
          .retry err.retryCode attempt (delayAfter options env attempt) ::
          .sleep attempt (delayAfter options env attempt) :: events) result

variable {err : RpcError} {meets : Attempt Response} {signal : Signal} {time : ℚ} {later target : ℕ}

theorem signalled_iff : Signalled request env deadline attempt ↔
    ∃ signal, dialSignal request deadline (env.attempts attempt) = .ok signal :=
  hasSignal_iff

/-- What the `catch` block does. -/
theorem caught_cases (options : Options) (deadline : Option ℚ) (attempt : ℕ)
    (meets : Attempt Response) (err : RpcError) :
    (∃ records, (records = [] ∨ records = [.failure]) ∧
      (err.retryable = false ∨ attempt = options.attempts ∨
        pastDeadline deadline meets.failedAt = true ∨ endsLate deadline meets.failedAt
          (calculateBackoff options.backoff attempt meets.random) = true) ∧
      caught options deadline attempt meets err = (records, false)) ∨
    (err.retryable = true ∧ attempt ≠ options.attempts ∧
      endsLate deadline meets.failedAt
        (calculateBackoff options.backoff attempt meets.random) = false ∧
      caught options deadline attempt meets err = ([.failure,
        .retry err.retryCode attempt (calculateBackoff options.backoff attempt meets.random),
        .sleep attempt (calculateBackoff options.backoff attempt meets.random)], true)) := by
  rw [caught]
  by_cases hretry : err.retryable = true
  · rw [if_neg (not_not.mpr hretry)]
    by_cases hlast : attempt = options.attempts
    · exact .inl ⟨_, .inr rfl, .inr (.inl hlast), if_pos hlast⟩
    · rw [if_neg hlast]
      by_cases hpast : pastDeadline deadline meets.failedAt = true
      · exact .inl ⟨_, .inr rfl, .inr (.inr (.inl hpast)), if_pos hpast⟩
      · rw [if_neg hpast]
        by_cases hlate : endsLate deadline meets.failedAt
            (calculateBackoff options.backoff attempt meets.random) = true
        · exact .inl ⟨_, .inr rfl, .inr (.inr (.inr hlate)), if_pos hlate⟩
        · exact .inr ⟨hretry, hlast, Bool.not_eq_true _ ▸ hlate, if_neg hlate⟩
  · exact .inl ⟨_, .inl rfl, .inl (Bool.not_eq_true _ ▸ hretry), if_pos hretry⟩

theorem signal_of_protected (hsignal : dialSignal request deadline meets = .ok signal)
    (hprotected : isSendTransaction request.body = true) : signal = .asItCame := by
  rw [dialSignal, hprotected] at hsignal
  cases deadline with
  | none => exact (Except.ok.inj hsignal).symm
  | some limit => exact (Except.ok.inj hsignal).symm

/-- What is dialled at the deadline is given an aborted signal. -/
theorem signal_of_late {limit : ℚ} (hsignal : dialSignal request (some limit) meets = .ok signal)
    (hread : isSendTransaction request.body = false) (hlate : limit ≤ meets.dialAt) :
    signal = .aborted := by
  have hpast := Number.nearest_le Number.isDouble_zero (sub_nonpos.mpr hlate)
  rw [dialSignal, signalOf, hread] at hsignal
  simp only [Bool.false_eq_true, if_false, createDeadlineSignal] at hsignal
  split at hsignal
  · next ms heq =>
      rw [heq, Number.finite_le_finite] at hpast
      rw [if_pos hpast] at hsignal
      exact (Except.ok.inj hsignal).symm
  · exact (Except.ok.inj hsignal).symm

theorem not_past_iff : pastDeadline deadline time = false ↔ ∀ limit ∈ deadline, time < limit := by
  cases deadline with
  | none => simp [pastDeadline]
  | some limit => simp [pastDeadline]

theorem allowed_dial (hstarts : Starts env deadline attempt)
    (hsignal : dialSignal request deadline (env.attempts attempt) = .ok signal)
    (hbefore : ∀ earlier, 1 ≤ earlier → earlier < attempt → MayRetry env earlier) :
    Allowed options request env deadline (.dial attempt signal) := by
  refine ⟨fun hlater => not_past_iff.mp (hstarts hlater), hsignal, signal_of_protected hsignal,
    fun hread limit hlimit => ?_, hbefore⟩
  rw [Option.mem_def.mp hlimit] at hsignal
  exact signal_of_late hsignal hread

/-- A sleep with a proper delay ends before the deadline. -/
theorem within_of_endsLate {delay : Number} {low high : ℚ} (hdelay : Between low high delay)
    (hwithin : endsLate deadline time delay = false) :
    ∀ limit ∈ deadline, Number.add (.finite time) delay ≤ .finite limit := by
  rintro limit hlimit
  rw [Option.mem_def.mp hlimit, endsLate, Option.any_some, decide_eq_false_iff_not] at hwithin
  cases delay with
  | nan => exact absurd hdelay.1 Number.not_le_nan
  | infinity negative =>
      have hlow := Number.finite_le_infinity.mp hdelay.1
      have hhigh := Number.infinity_le_finite.mp hdelay.2
      cases hlow.symm.trans hhigh
  | finite ms => exact Number.le_of_not_lt (Number.nearest_ne_nan _) hwithin

/-- Every event of a trace is allowed, when all that was before it may be retried. -/
theorem Trace.allowed (htrace : Trace options request env deadline attempt lastError events
    result) (hone : 1 ≤ attempt)
    (hdoubles : ∀ attempt, 1 ≤ attempt → attempt < options.attempts →
      Doubles options.backoff.baseDelayMs attempt)
    (hbefore : ∀ earlier, 1 ≤ earlier → earlier < attempt → MayRetry env earlier) :
    ∀ event ∈ events, Allowed options request env deadline event := by
  induction htrace with
  | exhausted | unsignalled => exact fun event hevent => absurd hevent List.not_mem_nil
  | answered _ hstarts hsignal =>
      intro event hevent
      rcases List.mem_cons.mp hevent with rfl | hrest
      · exact allowed_dial hstarts hsignal hbefore
      · rw [List.mem_singleton.mp hrest]
        trivial
  | failed _ hstarts hsignal _ hrecords =>
      intro event hevent
      rcases List.mem_cons.mp hevent with rfl | hrest
      · exact allowed_dial hstarts hsignal hbefore
      · rcases hrecords with rfl | rfl
        · cases hrest
        · rw [List.mem_singleton.mp hrest]
          trivial
  | @retried attempt _ _ err _ _ hattempt hstarts hsignal houtcome hretry hwithin _ ih =>
      have hmay : ∀ earlier, 1 ≤ earlier → earlier < attempt + 1 → MayRetry env earlier := by
        intro earlier hpos hlt
        rcases Nat.lt_succ_iff_lt_or_eq.mp hlt with hless | rfl
        · exact hbefore earlier hpos hless
        · exact ⟨err, houtcome, hretry⟩
      have hdelay := calculateBackoff_between hone (hdoubles attempt hone hattempt)
        (env.random_nonneg attempt)
      intro event hevent
      rcases List.mem_cons.mp hevent with rfl | hrest
      · exact allowed_dial hstarts hsignal hbefore
      · rcases List.mem_cons.mp hrest with rfl | hrest
        · trivial
        · rcases List.mem_cons.mp hrest with rfl | hrest
          · trivial
          · rcases List.mem_cons.mp hrest with rfl | hrest
            · exact ⟨within_of_endsLate hdelay hwithin, hattempt, rfl, fun earlier hpos hle =>
                hmay earlier hpos (Nat.lt_succ_of_le hle)⟩
            · exact ih (Nat.le_add_left 1 attempt) hmay event hrest

theorem head_le_head (env : Environment Response) {earlier : ℕ} (hle : earlier ≤ later) :
    (env.attempts earlier).headAt ≤ (env.attempts later).headAt := by
  induction hle with
  | refl => exact le_rfl
  | step _ ih =>
      exact ih.trans ((env.head_le _).trans ((env.dial_le _).trans (env.failed_le _)))

theorem past_of_head_le {earlier : ℕ} (hle : earlier ≤ later)
    (hpast : pastDeadline deadline (env.attempts earlier).headAt = true) :
    pastDeadline deadline (env.attempts later).headAt = true :=
  pastDeadline_of_le hpast (head_le_head env hle)

/-- An attempt that the loop has come to. -/
theorem comesTo_succ (hcomes : 1 < attempt → ComesTo options env deadline attempt)
    (hattempt : attempt < options.attempts) (houtcome : (env.attempts attempt).outcome = .error err)
    (hretry : err.retryable = true) (hwithin : endsLate deadline (env.attempts attempt).failedAt
      (delayAfter options env attempt) = false) (hone : 1 ≤ attempt)
    (hstarts : Starts env deadline (attempt + 1)) : ComesTo options env deadline (attempt + 1) where
  within := hattempt
  intime := hstarts (Nat.lt_succ_of_le hone)
  retried := by
    intro earlier hpos hlt
    rcases Nat.lt_succ_iff_lt_or_eq.mp hlt with hless | rfl
    · exact (hcomes (Nat.lt_of_le_of_lt hpos hless)).retried earlier hpos hless
    · exact ⟨⟨err, houtcome, hretry⟩, hwithin⟩

/-- A call ends as the outcome of its last dial says, when no attempt after the first that it
comes to is left without a signal. -/
theorem Trace.last (htrace : Trace options request env deadline attempt lastError events result)
    (hone : 1 ≤ attempt) (hcomes : Starts env deadline attempt → 1 < attempt →
      ComesTo options env deadline attempt)
    (hsignal : ∀ later, 1 < later → ComesTo options env deadline later →
      Signalled request env deadline later) :
    (dialled events = [] → 1 < attempt → result = .threw lastError) ∧
      ∀ last ∈ (dialled events).getLast?,
        result = Result.ofOutcome (env.attempts last).outcome := by
  induction htrace with
  | exhausted => exact ⟨fun _ _ => rfl, fun last hlast => absurd hlast (Option.not_mem_none last)⟩
  | @unsignalled attempt _ hstarts herror =>
      refine ⟨fun _ hlater => ?_, fun last hlast => absurd hlast (Option.not_mem_none last)⟩
      obtain ⟨signal, hok⟩ :=
        signalled_iff.mp (hsignal attempt hlater (hcomes hstarts hlater))
      cases herror.symm.trans hok
  | @answered attempt _ _ _ _ _ _ houtcome =>
      refine ⟨fun hnone => absurd hnone (List.cons_ne_nil _ _), fun last hlast => ?_⟩
      have hself : last = attempt := (Option.some.inj hlast).symm
      rw [hself, houtcome, Result.ofOutcome]
  | @failed attempt _ _ _ _ _ _ _ houtcome hrecords _ =>
      refine ⟨fun hnone => absurd hnone (List.cons_ne_nil _ _), fun last hlast => ?_⟩
      have hself : last = attempt := by
        rcases hrecords with rfl | rfl
        · exact (Option.some.inj hlast).symm
        · exact (Option.some.inj hlast).symm
      rw [hself, houtcome, Result.ofOutcome]
  | @retried attempt _ _ err events result hattempt hstarts _ houtcome hretry hwithin _ ih =>
      refine ⟨fun hnone => absurd hnone (List.cons_ne_nil _ _), fun last hlast => ?_⟩
      obtain ⟨hempty, hnext⟩ := ih (Nat.le_add_left 1 attempt) fun hbegins _ =>
        comesTo_succ (hcomes hstarts) hattempt houtcome hretry hwithin hone hbegins
      change last ∈ (attempt :: dialled events).getLast? at hlast
      cases hrest : (dialled events).getLast? with
      | none =>
          rw [List.getLast?_cons, hrest] at hlast
          have hself : last = attempt := (Option.some.inj hlast).symm
          rw [hempty (List.getLast?_eq_none_iff.mp hrest) (by omega), hself, houtcome,
            Result.ofOutcome]
      | some later =>
          rw [List.getLast?_cons, hrest] at hlast
          obtain rfl := Option.some.inj hlast
          exact hnext later hrest

theorem ComesTo.earlier (hcomes : ComesTo options env deadline target) (hle : attempt ≤ target) :
    ComesTo options env deadline attempt where
  within := hle.trans hcomes.within
  intime := by
    rw [← Bool.not_eq_true]
    intro hpast
    cases hcomes.intime.symm.trans (past_of_head_le hle hpast)
  retried := fun earlier hone hlt => hcomes.retried earlier hone (hlt.trans_le hle)

def Request.plain : Request := ⟨none, none, false, false⟩

end Traces

end X402Facilitator.RetryingFetch
