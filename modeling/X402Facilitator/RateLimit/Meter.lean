import X402Facilitator.RateLimit.Limiter

/-!
# The metered calls of the rate limiter

Every route has a check, which reads its buckets, and a record, which counts in
them.  This is the limiter over the in-memory store, with all of its routes; a
call reads the clock once for each access to the store.
-/

namespace X402Facilitator.RateLimit

/-- The limits of one key, or of all callers without their own. -/
structure MeteredLimits extends Limits where
  verifyRpm : Limit := .number 60
  catalogRpm : Limit := .number 10
  catalogReadRpm : Option Limit := none

/-- What a limiter is constructed with: the ceilings of the networks, and whether
an address matches an entry of the allowlist. -/
structure MeterConfig where
  global : MeteredLimits
  keys : String → Option MeteredLimits
  allowlisted : String → Bool
  perNetwork : String → Option ℕ

def MeterConfig.getKeyConfig (config : MeterConfig) : Owner → MeteredLimits
  | .key keyId => (config.keys keyId.toUpper).getD config.global
  | .ip _ => config.global

/-- `catalogReadRpm ?? 60`. -/
def MeteredLimits.catalogReads (limits : MeteredLimits) : Limit :=
  limits.catalogReadRpm.getD (.number 60)

inductive MeterType where
  | verify
  | settle
  | fee
  | catalog
  | catalogRead
  deriving DecidableEq, Repr

structure MeterId where
  owner : Owner
  type : MeterType
  windowStart : ℕ
  windowSec : ℕ
  deriving DecidableEq, Repr

def meterId (owner : Owner) (type : MeterType) (windowSec now : ℕ) : MeterId :=
  ⟨owner, type, windowStart now windowSec, windowSec⟩

def MeterId.ends (id : MeterId) : ℕ := id.windowStart + id.windowSec

/-- `limit - total`. -/
def Limit.minus : Limit → ℕ → Limit
  | number value, total => .number (value - total)
  | infinity, _ => .infinity
  | negativeInfinity, _ => .negativeInfinity

/-- `Math.max(0, limit)`. -/
def Limit.clamp : Limit → Limit
  | number value => .number (max 0 value)
  | infinity => .infinity
  | negativeInfinity => .number 0

/-- `first < second`. -/
def Limit.less : Limit → Limit → Bool
  | number first, number second => first < second
  | number _, infinity => true
  | negativeInfinity, number _ => true
  | negativeInfinity, infinity => true
  | _, _ => false

structure Outcome where
  allowed : Bool
  bypassed : Bool := false
  limit : Limit
  remaining : Limit
  resetAt : ℕ
  reason : Option String := none

/-- The counts that `getUsage` reports, and the limits beside them. -/
structure Usage where
  verifyRpm : ℕ
  settleRpm : ℕ
  settleRph : ℕ
  settleRpd : ℕ
  feeSpd : ℕ
  catalogRpm : ℕ
  limits : MeteredLimits

def MeterConfig.bypass (config : MeterConfig) (caller : Caller) (limit : Limit)
    (windowSec now : ℕ) : Option Outcome :=
  if config.allowlisted caller.ip then
    some { allowed := true, bypassed := true, limit, remaining := limit,
           resetAt := now + windowSec }
  else none

/-- The verdict on a count: the branches that both limiters share. -/
def verdict (limit : Limit) (count amount resetAt : ℕ) : Outcome :=
  if limit.Admits (count + amount) then
    { allowed := true, limit, remaining := limit.minus (count + amount), resetAt }
  else { allowed := false, limit, remaining := .number 0, resetAt }

/-- `res.reason = reason`, unless the check has given one. -/
def Outcome.because (outcome : Outcome) (reason : String) : Outcome :=
  if outcome.allowed then outcome else { outcome with reason := some (outcome.reason.getD reason) }

/-- The outcome with the least remaining allowance, the first of several. -/
def tightest (first : Outcome) (others : List Outcome) : Outcome :=
  others.foldl (fun tightest current =>
    if current.remaining.less tightest.remaining then current else tightest) first

/-- `_postRecordRemaining`, for a record that the store has answered. -/
def postRecordRemaining (limit : Limit) (bucket : Bucket) : Limit :=
  (limit.minus bucket.count).clamp

def recorded1 (limit : Limit) (bucket : Bucket) : Outcome where
  allowed := true
  limit := limit
  remaining := postRecordRemaining limit bucket
  resetAt := bucket.resetAt

/-- What a settlement's record returns: the tightest of its three windows, with
the reset time of the first. -/
def recordedSettle (limits : MeteredLimits) (minute hour day : Bucket) : Outcome :=
  { tightest (recorded1 limits.settleRpm minute)
      [recorded1 limits.settleRph hour, recorded1 limits.settleRpd day] with
    resetAt := minute.resetAt }

/-- The fee that `checkSettle` reserves. -/
def MeterConfig.reservation (config : MeterConfig) (network : Option String) : ℕ :=
  (network.bind config.perNetwork).getD 50000

namespace RateLimiter

variable {maxSize : ℕ}

def increment (store : MemoryStore MeterId maxSize) (owner : Owner) (type : MeterType)
    (windowSec amount now : ℕ) : Bucket × MemoryStore MeterId maxSize :=
  let id := meterId owner type windowSec now
  let resetAt := computeResetAt now windowSec
  (store.counted id amount resetAt now, store.increment id amount resetAt now)

/-- `_check`, which sweeps the store as well. -/
def check (store : MemoryStore MeterId maxSize) (owner : Owner) (type : MeterType)
    (windowSec : ℕ) (limit : Limit) (amount now : ℕ) : Outcome × MemoryStore MeterId maxSize :=
  let bucket := store.get (meterId owner type windowSec now) now
  let resetAt := (bucket.map Bucket.resetAt).getD (computeResetAt now windowSec)
  let count := (bucket.map Bucket.count).getD 0
  (verdict limit count amount resetAt, store.sweep now)

variable (config : MeterConfig) (store : MemoryStore MeterId maxSize) (caller : Caller)
variable (clock : ℕ → ℕ)

/-- The checks of the routes with one window of a minute. -/
def checkMinute (type : MeterType) (limit : Limit) (reason : String) :
    Outcome × MemoryStore MeterId maxSize :=
  match config.bypass caller limit 60 (clock 0) with
  | some outcome => (outcome, store)
  | none =>
      let result := check store caller.owner type 60 limit 1 (clock 0)
      (result.1.because reason, result.2)

def checkVerify : Outcome × MemoryStore MeterId maxSize :=
  checkMinute config store caller clock .verify (config.getKeyConfig caller.owner).verifyRpm
    "rate_limit_exceeded"

def checkCatalog : Outcome × MemoryStore MeterId maxSize :=
  checkMinute config store caller clock .catalog (config.getKeyConfig caller.owner).catalogRpm
    "catalog_rate_limited"

def checkCatalogRead : Outcome × MemoryStore MeterId maxSize :=
  checkMinute config store caller clock .catalogRead
    (config.getKeyConfig caller.owner).catalogReads "catalog_read_rate_limited"

/-- The records of the routes with one window of a minute. -/
def recordMinute (type : MeterType) (limit : Limit) : Outcome × MemoryStore MeterId maxSize :=
  let result := increment store caller.owner type 60 1 (clock 0)
  (recorded1 limit result.1, result.2)

def recordVerify : Outcome × MemoryStore MeterId maxSize :=
  recordMinute store caller clock .verify (config.getKeyConfig caller.owner).verifyRpm

def recordCatalog : Outcome × MemoryStore MeterId maxSize :=
  recordMinute store caller clock .catalog (config.getKeyConfig caller.owner).catalogRpm

def recordCatalogRead : Outcome × MemoryStore MeterId maxSize :=
  recordMinute store caller clock .catalogRead (config.getKeyConfig caller.owner).catalogReads

def checkSettle (network : Option String) : Outcome × MemoryStore MeterId maxSize :=
  let limits := config.getKeyConfig caller.owner
  match config.bypass caller limits.settleRpm 60 (clock 0) with
  | some outcome => (outcome, store)
  | none =>
      let minute := check store caller.owner .settle 60 limits.settleRpm 1 (clock 0)
      let hour := check minute.2 caller.owner .settle 3600 limits.settleRph 1 (clock 1)
      let day := check hour.2 caller.owner .settle 86400 limits.settleRpd 1 (clock 2)
      match [minute.1, hour.1, day.1].find? fun outcome => !outcome.allowed with
      | some outcome => (outcome.because "rate_limit_exceeded", day.2)
      | none =>
          let fee := check day.2 caller.owner .fee 86400 limits.feeSpd
            (config.reservation network) (clock 3)
          if fee.1.allowed then (tightest minute.1 [hour.1, day.1], fee.2)
          else (fee.1.because "fee_ceiling_exceeded", fee.2)

def recordSettle (feeCharged : ℤ) : Outcome × MemoryStore MeterId maxSize :=
  let minute := increment store caller.owner .settle 60 1 (clock 0)
  let hour := increment minute.2 caller.owner .settle 3600 1 (clock 1)
  let day := increment hour.2 caller.owner .settle 86400 1 (clock 2)
  let charged := if 0 < feeCharged then
      (increment day.2 caller.owner .fee 86400 feeCharged.toNat (clock 3)).2
    else day.2
  (recordedSettle (config.getKeyConfig caller.owner) minute.1 hour.1 day.1, charged)

/-- The count that `getUsage` reads in one bucket. -/
def usageCount (owner : Owner) (type : MeterType) (windowSec now : ℕ) : ℕ :=
  ((store.get (meterId owner type windowSec now) now).map Bucket.count).getD 0

def getUsage (keyId : String) : Usage where
  verifyRpm := usageCount store (.key keyId) .verify 60 (clock 0)
  settleRpm := usageCount store (.key keyId) .settle 60 (clock 1)
  settleRph := usageCount store (.key keyId) .settle 3600 (clock 2)
  settleRpd := usageCount store (.key keyId) .settle 86400 (clock 3)
  feeSpd := usageCount store (.key keyId) .fee 86400 (clock 4)
  catalogRpm := usageCount store (.key keyId) .catalog 60 (clock 5)
  limits := config.getKeyConfig (.key keyId)

end RateLimiter

end X402Facilitator.RateLimit
