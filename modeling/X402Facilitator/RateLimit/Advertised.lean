import Mathlib.Order.WithBot
import X402Facilitator.Library.Sorting
import X402Facilitator.RateLimit.CrdtStore
import X402Facilitator.RateLimit.Meter

/-!
# What the limiter advertises

A check and a record of a settlement over any store: the store's answers are inputs, and a
call can fail.  The limiter reads the clock twice for each access, once for the time and once
for the id of the bucket, and each reading is an input as well.
-/

namespace X402Facilitator.RateLimit

/-- The place of a limit in the order of the numbers. -/
def Limit.value : Limit → WithBot (WithTop ℚ)
  | number value => ((value : WithTop ℚ) : WithBot (WithTop ℚ))
  | infinity => ((⊤ : WithTop ℚ) : WithBot (WithTop ℚ))
  | negativeInfinity => ⊥

def Limit.isFinite : Limit → Bool
  | number _ => true
  | infinity | negativeInfinity => false

def ResetAt.time? : ResetAt → Option ℕ
  | seconds value | digits value => some value
  | nan => none

structure LimiterState where
  allowed : Bool
  bypassed : Bool := false
  limit : Limit
  remaining : Limit
  resetAt : ResetAt
  reason : Option String := none

/-- `RateLimit-Limit`, `RateLimit-Remaining` and `RateLimit-Reset`. -/
structure RateLimitHeaders where
  limit : Limit
  remaining : Limit
  reset : ResetAt
  deriving DecidableEq

/-- What `handleRateLimit` does to the reply; a rejection has its retry time and reason. -/
structure RateLimitReply where
  headers : RateLimitHeaders
  rejected : Option (Option ℕ × Option String)

def LimiterState.headers (state : LimiterState) : RateLimitHeaders :=
  ⟨state.limit, state.remaining, state.resetAt⟩

/-- The first state whose remaining allowance is finite, and else the first. -/
def chosenState (states : List (Option LimiterState)) : Option LimiterState :=
  let present := states.filterMap id
  (present.find? fun state => state.remaining.isFinite).or present.head?

def handleRateLimit (states : List (Option LimiterState)) (now : ℕ) : Option RateLimitReply :=
  (chosenState states).map fun state =>
    { headers := state.headers
      rejected := if state.allowed then none
        else some (state.resetAt.time?.map fun time => max 1 (time - now), state.reason) }

/-- `allowed` and the rest, from a count. -/
def LimiterState.judge (limit : Limit) (count amount : ℕ) (resetAt : ResetAt) : LimiterState :=
  if limit.Admits (count + amount) then
    { allowed := true, limit, remaining := limit.minus (count + amount), resetAt }
  else { allowed := false, limit, remaining := .number 0, resetAt }

/-- `reason: state.reason || reason`, for a refusal. -/
def LimiterState.because (state : LimiterState) (reason : String) : LimiterState :=
  { state with reason := some (state.reason.getD reason) }

/-- `current.remaining < tightest.remaining ? current : tightest`, over the three checks. -/
def tightestState (minute hour day : LimiterState) : LimiterState :=
  leastOf (fun state => state.remaining.value) minute [hour, day]

/-- `{ count, resetAt }` as an increment returns it, with none for NaN. -/
structure Counted where
  count : Option ℕ
  resetAt : ResetAt

/-- How a store answers an increment.  Where it fails the bucket holds a count that the limiter
does not learn. -/
inductive CountAnswer where
  | counted (reading : Reading)
  | failed (held : ℕ)

inductive ReadAnswer where
  | found (reading : Reading)
  | missing
  | failed (held : ℕ)

def CountAnswer.count : CountAnswer → ℕ
  | counted reading => reading.count
  | failed held => held

def ReadAnswer.count : ReadAnswer → ℕ
  | found reading => reading.count
  | missing => 0
  | failed held => held

/-- `_postRecordRemaining` -/
def remainingAfter (limit : Limit) (counted : Counted) : Limit :=
  (limit.minus (counted.count.getD 1)).clamp

/-- What `recordSettle` makes of its three increments.  The reset time is that of the first. -/
def recordedState (limits : MeteredLimits) (b60 b3600 b86400 : Counted) : LimiterState :=
  let entries := [(limits.settleRpm, remainingAfter limits.settleRpm b60),
    (limits.settleRph, remainingAfter limits.settleRph b3600),
    (limits.settleRpd, remainingAfter limits.settleRpd b86400)]
  let tightest := (sortBy (fun entry => entry.2.value) entries).headD
    (limits.settleRpm, remainingAfter limits.settleRpm b60)
  { allowed := true, limit := tightest.1, remaining := tightest.2, resetAt := b60.resetAt }

/-- `_bypass` -/
def MeterConfig.bypassState (config : MeterConfig) (caller : Caller) (limit : Limit)
    (windowSec now : ℕ) : Option LimiterState :=
  if config.allowlisted caller.ip then
    some { allowed := true, bypassed := true, limit, remaining := limit,
           resetAt := .seconds (now + windowSec) }
  else none

/-- What `checkSettle` makes of its checks. -/
def checkedState (minute hour day fee : LimiterState) : LimiterState :=
  match [minute, hour, day].find? fun state => !state.allowed with
  | some state => state.because "rate_limit_exceeded"
  | none => if fee.allowed then tightestState minute hour day
      else fee.because "fee_ceiling_exceeded"

/-- One access of a call to the store: what the clock shows, with the reading for the id of the
bucket apart. -/
structure Ticks where
  now : ℕ
  idNow : ℕ

namespace AnyStore

/-- `_increment`, from the store's answer. -/
def increment (answer : CountAnswer) (windowSec : ℕ) (ticks : Ticks) : Counted :=
  match answer with
  | .counted reading => ⟨some reading.count, reading.resetAt⟩
  | .failed _ => ⟨none, .seconds (computeResetAt ticks.now windowSec)⟩

/-- `_check`, from the store's answer. -/
def check (answer : ReadAnswer) (windowSec : ℕ) (limit : Limit) (amount : ℕ) (ticks : Ticks) :
    LimiterState :=
  match answer with
  | .found reading => .judge limit reading.count amount reading.resetAt
  | .missing => .judge limit 0 amount (.seconds (computeResetAt ticks.now windowSec))
  | .failed _ =>
      { allowed := false, limit, remaining := .number 0,
        resetAt := .seconds (computeResetAt ticks.now windowSec),
        reason := some "rate_limit_store_unavailable" }

variable (config : MeterConfig) (caller : Caller) (ticks : ℕ → Ticks)

/-- `recordSettle`.  What the increment of the fee returns is not looked at. -/
def recordSettle (answers : ℕ → CountAnswer) : LimiterState :=
  recordedState (config.getKeyConfig caller.owner) (increment (answers 0) 60 (ticks 0))
    (increment (answers 1) 3600 (ticks 1)) (increment (answers 2) 86400 (ticks 2))

def checkSettle (network : Option String) (answers : ℕ → ReadAnswer) : LimiterState :=
  let limits := config.getKeyConfig caller.owner
  (config.bypassState caller limits.settleRpm 60 (ticks 0).now).getD
    (checkedState (check (answers 0) 60 limits.settleRpm 1 (ticks 0))
      (check (answers 1) 3600 limits.settleRph 1 (ticks 1))
      (check (answers 2) 86400 limits.settleRpd 1 (ticks 2))
      (check (answers 3) 86400 limits.feeSpd (config.reservation network) (ticks 3)))

end AnyStore

namespace RedisFallback

/-- What `_withRedis` comes to: Redis answers with a count, or the in-memory limiter is asked,
which reads the clock again. -/
inductive Source (Answer : Type) where
  | redis (count : ℕ)
  | memory (answer : Answer) (ticks : Ticks)

def incrementAsync (source : Source CountAnswer) (windowSec : ℕ) (ticks : Ticks) : Counted :=
  let resetAt := ResetAt.seconds (computeResetAt ticks.now windowSec)
  match source with
  | .redis count => ⟨some count, resetAt⟩
  | .memory answer inner => ⟨(AnyStore.increment answer windowSec inner).count, resetAt⟩

def checkAsync (source : Source ReadAnswer) (windowSec : ℕ) (limit : Limit) (amount : ℕ)
    (ticks : Ticks) : LimiterState :=
  match source with
  | .redis count => .judge limit count amount (.seconds (computeResetAt ticks.now windowSec))
  | .memory answer inner => AnyStore.check answer windowSec limit amount inner

/-- `{ ...state, reason }`, which puts the reason in the place of another. -/
def replaceReason (state : LimiterState) (reason : String) : LimiterState :=
  { state with reason := some reason }

variable (config : MeterConfig) (caller : Caller) (ticks : ℕ → Ticks)

def recordSettle (sources : ℕ → Source CountAnswer) : LimiterState :=
  recordedState (config.getKeyConfig caller.owner) (incrementAsync (sources 0) 60 (ticks 0))
    (incrementAsync (sources 1) 3600 (ticks 1)) (incrementAsync (sources 2) 86400 (ticks 2))

def checkSettle (_network : Option String) (sources : ℕ → Source ReadAnswer) : LimiterState :=
  let limits := config.getKeyConfig caller.owner
  let minute := checkAsync (sources 0) 60 limits.settleRpm 1 (ticks 0)
  let hour := checkAsync (sources 1) 3600 limits.settleRph 1 (ticks 1)
  let day := checkAsync (sources 2) 86400 limits.settleRpd 1 (ticks 2)
  let fee := checkAsync (sources 3) 86400 limits.feeSpd 50000 (ticks 3)
  (config.bypassState caller limits.settleRpm 60 (ticks 0).now).getD
    (match [minute, hour, day].find? fun state => !state.allowed with
      | some state => replaceReason state "rate_limit_exceeded"
      | none => if fee.allowed then tightestState minute hour day
          else replaceReason fee "fee_ceiling_exceeded")

end RedisFallback

end X402Facilitator.RateLimit
